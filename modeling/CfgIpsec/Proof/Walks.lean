import CfgIpsec.Proof.Endless
import CfgIpsec.Proof.Expire
import CfgIpsec.Proof.Parse

/-!
# Walks agree with the parser

A walk over a message with extensions of pairwise different types finds in each
field it keeps what the one extension of the field's type says
(`walkRecords_field`), and visits the places the parser notes
(`walks_agree`).
-/

namespace CfgIpsec.Proof

open Impl Spec Tlv

/-! ## What a walk keeps -/

/-- A field that only extensions of one type write, each from what is at its
place and the value before. -/
theorem walkRecords_field {σ γ : Type} {visit : BitVec 16 → Nat → σ → Option σ} {t : BitVec 16} (field : σ → γ)
    (val : Nat → γ → γ)
    (hvisit : ∀ {type p st st'}, visit type p st = some st' →
      field st' = if type = t then val p (field st) else field st)
    {rs : List Bytes} (hn : (rs.map extFormat.type).Nodup) {off : Nat} {st st' : σ}
    (h : walkRecords visit off rs st = some st') :
    field st' = (locate extFormat t rs).elim (field st) fun o => val (off + o) (field st) := by
  -- where no extension has the type, the field stays
  have hstays : ∀ {rs : List Bytes} {off st st'}, (∀ e ∈ rs, extFormat.type e ≠ t) →
      walkRecords visit off rs st = some st' → field st' = field st := by
    intro rs
    induction rs with
    | nil => intro off st st' _ h; cases h; rfl
    | cons e rs ih =>
      intro off st st' ht h
      obtain ⟨he, ht⟩ := List.forall_mem_cons.mp ht
      obtain ⟨st₁, h₁, h⟩ := Option.bind_eq_some_iff.mp h
      rw [ih ht h, hvisit h₁, if_neg he]
  induction rs generalizing off st with
  | nil => cases h; rfl
  | cons e rs ih =>
    rw [List.map_cons, List.nodup_cons] at hn
    obtain ⟨st₁, h₁, h⟩ := Option.bind_eq_some_iff.mp h
    rw [locate]
    by_cases he : extFormat.type e = t
    · have hrest : ∀ e' ∈ rs, extFormat.type e' ≠ t := by
        intro e' he' heq
        exact hn.1 (List.mem_map.mpr ⟨e', he', heq.trans he.symm⟩)
      rw [hstays hrest h, hvisit h₁, if_pos he, if_pos he]
      rfl
    · rw [ih hn.2 h, hvisit h₁, if_neg he, if_neg he]
      cases locate extFormat t rs with
      | none => rfl
      | some o => simp only [Option.elim_some, Option.map_some, Nat.add_assoc]

/-- A walk whose visits end at each extension ends. -/
theorem walkRecords_isSome {σ : Type} {visit : BitVec 16 → Nat → σ → Option σ} {rs : List Bytes} {off : Nat}
    (hvisit : ∀ pre e post, rs = pre ++ e :: post →
      ∀ st, (visit (extFormat.type e) (off + pre.flatten.length) st).isSome)
    (st : σ) : ∃ st', walkRecords visit off rs st = some st' := by
  induction rs generalizing off st with
  | nil => exact ⟨st, rfl⟩
  | cons e rs ih =>
    obtain ⟨st₁, h₁⟩ := Option.isSome_iff_exists.mp (hvisit [] e rs rfl st)
    obtain ⟨st', hw⟩ := @ih (off + e.length) (fun pre e' post h => by
      have := hvisit (e :: pre) e' post (by rw [h]; rfl)
      rwa [List.flatten_cons, List.length_append, ← Nat.add_assoc] at this) st₁
    rw [List.flatten_nil, List.length_nil, Nat.add_zero] at h₁
    exact ⟨st', by rw [walkRecords, h₁, Option.bind_eq_bind, Option.bind_some, hw]⟩

/-- A walk that a visit keeps from ending does not end. -/
theorem walkRecords_eq_none {σ : Type} {visit : BitVec 16 → Nat → σ → Option σ} {pre post : List Bytes} {e : Bytes}
    {off : Nat} (hvisit : ∀ st, visit (extFormat.type e) (off + pre.flatten.length) st = none) (st : σ) :
    walkRecords visit off (pre ++ e :: post) st = none := by
  induction pre generalizing off st with
  | nil =>
    rw [List.flatten_nil, List.length_nil, Nat.add_zero] at hvisit
    rw [List.nil_append, walkRecords, hvisit, Option.bind_eq_bind, Option.bind_none]
  | cons e' pre ih =>
    rw [List.flatten_cons, List.length_append, ← Nat.add_assoc] at hvisit
    rw [List.cons_append, walkRecords]
    cases visit (extFormat.type e') off st with
    | none => rfl
    | some st' => exact ih hvisit st'

/-- A walk whose visits end visits where the extensions start. -/
theorem walkRecords_traced {σ : Type} {visit : BitVec 16 → Nat → σ → Option σ} {rs : List Bytes} {off : Nat}
    (hr : ∀ e ∈ rs, IsRecord extFormat e)
    (hvisit : ∀ p < off + rs.flatten.length, ∀ type st, (visit type p st).isSome) (st : σ) (offs : List Nat) :
    ∃ st', walkRecords visit off rs st = some st' ∧
      walkRecords (traced visit) off rs (st, offs) = some (st', offs ++ starts off rs) := by
  induction rs generalizing off st offs with
  | nil => exact ⟨st, rfl, by rw [starts, List.append_nil]; rfl⟩
  | cons e rs ih =>
    obtain ⟨he, hr⟩ := List.forall_mem_cons.mp hr
    have hlen : 8 ≤ e.length := he.unit_le
    rw [List.flatten_cons, List.length_append] at hvisit
    obtain ⟨st₁, h₁⟩ := Option.isSome_iff_exists.mp (hvisit off (by omega) (extFormat.type e) st)
    obtain ⟨st', hw, ht⟩ := @ih (off + e.length) hr (fun p hp => hvisit p (by omega)) st₁ (offs ++ [off])
    refine ⟨st', ?_, ?_⟩
    · rw [walkRecords, h₁, Option.bind_eq_bind, Option.bind_some, hw]
    · rw [walkRecords, traced, h₁, Option.map_some, Option.bind_eq_bind, Option.bind_some, ht, starts,
        List.append_assoc]
      rfl

/-! ## Messages that the parser accepts -/

/-- A message that the parser accepts has a header. -/
theorem two_le_msgUnits {msg : Bytes} {out : PfkeyMsg} (hlen : msg.length = 8 * msgUnits msg)
    (h : parsePfkeyMessage msg = some (0, out)) : 2 ≤ msgUnits msg := by
  obtain ⟨units, hunits, h⟩ := Option.bind_eq_some_iff.mp h
  obtain ⟨⟨k, out'⟩, hloop, -⟩ := Option.bind_eq_some_iff.mp h
  rw [getLE?] at hunits
  split at hunits
  · by_contra hlt
    have hu : units.toNat = msgUnits msg := by rw [← Option.some.inj hunits, msgUnits]
    -- the unit that a shorter length is less than the header wraps around
    have hleft : 1 ≤ (units.setWidth 64 - BitVec.ofNat 64 (sadbMsg.size / 8)).toNat := by
      have hbound := units.isLt
      have hsize : sadbMsg.size / 8 = 2 := rfl
      rw [hsize, BitVec.toNat_sub, BitVec.toNat_setWidth, BitVec.toNat_ofNat]
      omega
    have hnone : extLen msg sadbMsg.size = none := by
      have hsize : sadbMsg.size = 16 := rfl
      rw [extLen, getLE?, if_neg (by omega)]
    rw [parseLoop, if_pos hleft, hnone] at hloop
    cases hloop
  · cases hunits

/-- A message that the parser accepts is one of extensions, and the parser notes
where they start. -/
theorem isMessage_of_parse {msg : Bytes} {out : PfkeyMsg} (hlen : msg.length = 8 * msgUnits msg)
    (hfits : msg.length ≤ PFKEY_BUFFER_SIZE) (h : parsePfkeyMessage msg = some (0, out)) :
    ∃ rs, IsMessage msg rs ∧ (rs.map extFormat.type).Nodup ∧
      out = fun t => (locate extFormat t rs).map (sadbMsg.size + ·) := by
  have h2 := two_le_msgUnits hlen h
  obtain ⟨r, out', hparse, hr, hout⟩ := parsePfkeyMessage_spec h2 hlen.ge
  rw [h] at hparse
  cases hparse
  obtain ⟨rs, hrs⟩ := hr.mp rfl
  exact ⟨rs, ⟨h2, hlen, hfits, hrs.tiles⟩, hrs.nodup, hout rs hrs⟩

/-- The places visited are those the parser notes. -/
theorem inOrder_starts {rs : List Bytes} (hr : ∀ e ∈ rs, IsRecord extFormat e) (hn : (rs.map extFormat.type).Nodup)
    (off : Nat) : InOrder (fun t => (locate extFormat t rs).map (off + ·)) (starts off rs) :=
  ⟨starts_sorted (fun e he => (hr e he).ne_nil) off, fun _ => mem_starts_iff_locate hn⟩

/-- An extension has its first unit in the message. -/
theorem locate_room {rs : List Bytes} (hr : ∀ e ∈ rs, IsRecord extFormat e) (hn : (rs.map extFormat.type).Nodup)
    {t : BitVec 16} {o : Nat} (h : locate extFormat t rs = some o) : o + 8 ≤ rs.flatten.length := by
  obtain ⟨pre, e, post, rfl, -, rfl⟩ := (locate_eq_some_iff hn).mp h
  have hlen : 8 ≤ e.length := (hr e (List.mem_append_right _ List.mem_cons_self)).unit_le
  rw [List.flatten_append, List.flatten_cons, List.length_append, List.length_append]
  omega

/-- Where an extension stands in its message. -/
theorem ext_at {msg : Bytes} {rs pre post : List Bytes} {e : Bytes} (hm : IsMessage msg rs) (h : rs = pre ++ e :: post) :
    ∃ before behind, msg = before ++ (e ++ behind) ∧ before.length = sadbMsg.size + pre.flatten.length := by
  obtain ⟨header, hheader, rfl⟩ := isMessage_eq hm
  refine ⟨header ++ pre.flatten, post.flatten, ?_, ?_⟩
  · rw [h, List.flatten_append, List.flatten_cons, List.append_assoc]
  · rw [List.length_append, hheader]

/-- Where the extension of a type stands in its message. -/
theorem located {msg : Bytes} {rs : List Bytes} {e : Bytes} {t : BitVec 16} (hm : IsMessage msg rs)
    (hn : (rs.map extFormat.type).Nodup) (he : e ∈ rs) (ht : extFormat.type e = t) :
    ∃ o before behind, locate extFormat t rs = some o ∧ msg = before ++ (e ++ behind) ∧
      before.length = sadbMsg.size + o := by
  obtain ⟨pre, post, h⟩ := List.append_of_mem he
  obtain ⟨before, behind, hmsg, hlen⟩ := ext_at hm h
  exact ⟨_, before, behind, (locate_eq_some_iff hn).mpr ⟨pre, e, post, h, ht, rfl⟩, hmsg, hlen⟩

/-- A walk in memory over a message is one over its extensions. -/
theorem walk_message {σ : Type} {visit : BitVec 16 → Nat → σ → Option σ} (f : Frame) {msg : Bytes} {rs : List Bytes}
    (hm : IsMessage msg rs) (st : σ) :
    walk visit (f.read msg) (received msg) PFKEY_BUFFER_SIZE st = walkRecords visit sadbMsg.size rs st := by
  obtain ⟨hread, hreceived⟩ := read_eq f hm.fits
  rw [walk, hread, hreceived, walkExts_message hm]

/-! ## What the walks of the thread keep -/

theorem expiryVisit_spi {mem : Bytes} {type : BitVec 16} {p : Nat} {x x' : Expiry}
    (h : expiryVisit mem type p x = some x') :
    x'.spi = if type = SADB_EXT_SA then getBE mem (p + 4) 32 else x.spi := by
  rw [expiryVisit] at h
  split at h
  · obtain ⟨spi, hspi, h⟩ := Option.bind_eq_some_iff.mp h
    cases h
    rw [if_pos ‹_›]
    exact eq_of_getBE? hspi
  · rw [if_neg ‹_›]
    split at h <;> cases h <;> rfl

theorem expiryVisit_hard {mem : Bytes} {type : BitVec 16} {p : Nat} {x x' : Expiry}
    (h : expiryVisit mem type p x = some x') :
    x'.hard = if type = SADB_EXT_LIFETIME_HARD then true else x.hard := by
  rw [expiryVisit] at h
  split at h
  · rename_i hsa
    obtain ⟨spi, -, h⟩ := Option.bind_eq_some_iff.mp h
    cases h
    rw [if_neg (by rw [hsa]; decide)]
  · split at h <;> cases h
    · rw [if_pos ‹_›]
    · rw [if_neg ‹_›]

theorem acquireVisit_index {mem : Bytes} {type : BitVec 16} {p : Nat} {i i' : BitVec 32}
    (h : acquireVisit mem type p i = some i') :
    i' = if type = SADB_X_EXT_POLICY then getLE mem (p + 8) 32 else i := by
  rw [acquireVisit] at h
  split at h
  · rw [if_pos ‹_›]
    exact eq_of_getLE? h
  · rw [if_neg ‹_›]
    exact (Option.some.inj h).symm

/-- Over a message that the parser accepts, the walks of the thread end after
visiting the extensions the parser noted, in order, with the SPI of the SA,
whether there is a hard lifetime, and the id of the policy. The id of a policy
that is one unit long lies behind it. -/
theorem walks_agree (f : Frame) {msg : Bytes} {out : PfkeyMsg} (hlen : msg.length = 8 * msgUnits msg)
    (hfits : msg.length ≤ PFKEY_BUFFER_SIZE) (h : parsePfkeyMessage msg = some (0, out)) :
    ∃ offs, InOrder out offs ∧
      walk (traced (expiryVisit (f.read msg))) (f.read msg) (received msg) PFKEY_BUFFER_SIZE ({}, []) =
        some (⟨(out SADB_EXT_SA).elim 0 fun p => getBE msg (p + 4) 32, (out SADB_EXT_LIFETIME_HARD).isSome⟩, offs) ∧
      walk (traced (acquireVisit (f.read msg))) (f.read msg) (received msg) PFKEY_BUFFER_SIZE (0, []) =
        some ((out SADB_X_EXT_POLICY).elim 0 fun p => getLE (f.read msg) (p + 8) 32, offs) := by
  obtain ⟨rs, hm, hn, rfl⟩ := isMessage_of_parse hlen hfits h
  have hr := hm.exts.records
  obtain ⟨hread, -⟩ := read_eq f hfits
  obtain ⟨-, hmem⟩ := length_read f msg
  have hexts : sadbMsg.size + rs.flatten.length = msg.length := by
    obtain ⟨header, hheader, rfl⟩ := isMessage_eq hm
    rw [List.length_append, hheader]
  refine ⟨starts sadbMsg.size rs, inOrder_starts hr hn sadbMsg.size, ?_, ?_⟩
  · have hvisit : ∀ p < sadbMsg.size + rs.flatten.length, ∀ type x, (expiryVisit (f.read msg) type p x).isSome :=
      fun p hp type x => expiryVisit_isSome (by omega) type x
    obtain ⟨x, hx, htraced⟩ := walkRecords_traced hr hvisit {} []
    have hspi := walkRecords_field Expiry.spi (fun p _ => getBE (f.read msg) (p + 4) 32) expiryVisit_spi hn hx
    have hhard := walkRecords_field Expiry.hard (fun _ _ => true) expiryVisit_hard hn hx
    have hsa : x.spi = ((locate extFormat SADB_EXT_SA rs).map (sadbMsg.size + ·)).elim 0
        fun p => getBE msg (p + 4) 32 := by
      rw [hspi]
      cases hsa : locate extFormat SADB_EXT_SA rs with
      | none => rfl
      | some o =>
        have hroom := locate_room hr hn hsa
        rw [Option.elim_some, Option.map_some, Option.elim_some, hread, getBE_append_left _ (by omega)]
    have hlife : x.hard = ((locate extFormat SADB_EXT_LIFETIME_HARD rs).map (sadbMsg.size + ·)).isSome := by
      rw [hhard]
      cases locate extFormat SADB_EXT_LIFETIME_HARD rs <;> rfl
    rw [walk_message f hm, htraced, List.nil_append, ← hsa, ← hlife]
  · have hvisit : ∀ p < sadbMsg.size + rs.flatten.length, ∀ type i, (acquireVisit (f.read msg) type p i).isSome :=
      fun p hp type i => acquireVisit_isSome (by omega) type i
    obtain ⟨i, hi, htraced⟩ := walkRecords_traced hr hvisit 0 []
    have hindex := walkRecords_field id (fun p _ => getLE (f.read msg) (p + 8) 32) acquireVisit_index hn hi
    have hpolicy : i = ((locate extFormat SADB_X_EXT_POLICY rs).map (sadbMsg.size + ·)).elim 0
        fun p => getLE (f.read msg) (p + 8) 32 := by
      refine hindex.trans ?_
      cases locate extFormat SADB_X_EXT_POLICY rs <;> rfl
    rw [walk_message f hm, htraced, List.nil_append, ← hpolicy]

theorem walks_agree_hard :
    ∃ out offs, parsePfkeyMessage (expireMessage 34502 SADB_EXT_LIFETIME_HARD) = some (0, out) ∧ InOrder out offs ∧
      walk (traced (expiryVisit (Frame.zeros.read (expireMessage 34502 SADB_EXT_LIFETIME_HARD))))
        (Frame.zeros.read (expireMessage 34502 SADB_EXT_LIFETIME_HARD))
        (received (expireMessage 34502 SADB_EXT_LIFETIME_HARD)) PFKEY_BUFFER_SIZE ({}, []) =
          some (⟨34502, true⟩, offs) := by
  have hany : (parsePfkeyMessage (expireMessage 34502 SADB_EXT_LIFETIME_HARD)).any (fun r =>
      r.1 = 0 ∧ r.2 SADB_EXT_SA = some 16 ∧ (r.2 SADB_EXT_LIFETIME_HARD).isSome) = true := by decide +kernel
  obtain ⟨⟨r, out⟩, hparse, h⟩ := (Option.any_eq_true _ _).mp hany
  obtain ⟨rfl, hsa, hhard⟩ := of_decide_eq_true h
  simp only at hsa hhard
  obtain ⟨offs, horder, hwalk, -⟩ := walks_agree .zeros (by decide +kernel) (by decide +kernel) hparse
  have hspi : getBE (expireMessage 34502 SADB_EXT_LIFETIME_HARD) (16 + 4) 32 = 34502 := by decide +kernel
  rw [hsa, Option.elim_some, hspi, hhard] at hwalk
  exact ⟨out, offs, hparse, horder, hwalk⟩

end CfgIpsec.Proof
