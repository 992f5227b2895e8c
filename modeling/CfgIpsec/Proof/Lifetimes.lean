import Mathlib.Data.BitVec
import CfgIpsec.Proof.SadMessages
import CfgIpsec.Proof.Settings
import CfgIpsec.Spec.Reaches

/-!
# Lifetimes

Every limit is read as an `int` and widened, and the hard ones of an entry with
`/sa-lifetime-soft` in its name are taken for soft ones. `sad_lifetimes`: the
message that adds the SA carries the limits of the entry exactly when they
survive this.
-/

namespace CfgIpsec.Proof

open Impl Spec
open CStr (lit)

/-! ## Numbers read as `int` -/

/-- A number read as an `int` and widened to `unsigned long`. -/
def int32 (x : BitVec 64) : BitVec 64 := (x.setWidth 32).signExtend 64

theorem toNat_int32 (x : BitVec 64) :
    (int32 x).toNat =
      x.toNat % 2 ^ 32 + if 2 ^ 31 ≤ x.toNat % 2 ^ 32 then 2 ^ 64 - 2 ^ 32 else 0 := by
  have hlt : x.toNat % 2 ^ 32 < 2 ^ 32 := Nat.mod_lt _ (by decide)
  rw [int32, BitVec.toNat_signExtend, BitVec.toNat_setWidth, BitVec.toNat_setWidth, BitVec.msb_eq_decide,
    BitVec.toNat_setWidth, Nat.mod_eq_of_lt (show x.toNat % 2 ^ 32 < 2 ^ 64 by omega)]
  simp

theorem int32_eq_iff (x : BitVec 64) :
    int32 x = x ↔ x.toNat < 2 ^ 31 ∨ 2 ^ 64 - 2 ^ 31 ≤ x.toNat := by
  have hx := x.isLt
  rw [← BitVec.toNat_inj, toNat_int32]
  split <;> omega

theorem setWidth_int32 (x : BitVec 64) : (int32 x).setWidth 32 = x.setWidth 32 := by
  rw [← BitVec.toNat_inj, BitVec.toNat_setWidth, toNat_int32, BitVec.toNat_setWidth]
  split <;> omega

/-! ## The fields of a node -/

def lft : Lifetime → Limit → SadEntryNode → BitVec 64
  | .hard, .time => (·.lftTimeHard)
  | .hard, .bytes => (·.lftBytesHard)
  | .hard, .packets => (·.lftPacketsHard)
  | .hard, .idle => (·.lftIdleHard)
  | .soft, .time => (·.lftTimeSoft)
  | .soft, .bytes => (·.lftBytesSoft)
  | .soft, .packets => (·.lftPacketsSoft)
  | .soft, .idle => (·.lftIdleSoft)

def limitLeaf : Limit → SadLeaf
  | .time => .time
  | .bytes => .bytes
  | .packets => .packets
  | .idle => .idle

/-- A limit is stored as a soft one where the xpath says so, else as a hard
one. -/
theorem limitLeaf_store {has : CStr → Bool} {d : SrData} {n m : SadEntryNode} {l : Limit}
    (h : (limitLeaf l).store has d n = some (.next m)) (c : Lifetime) (k : Limit) :
    lft c k m =
      if k = l ∧ (if c = .soft then has (lit "/sa-lifetime-soft") = true
        else has (lit "/sa-lifetime-soft") = false ∧ has (lit "/sa-lifetime-hard") = true)
      then int32 d.raw else lft c k n := by
  cases l <;> cases h <;> rw [storeLifetime] <;>
    cases has (lit "/sa-lifetime-soft") <;> cases has (lit "/sa-lifetime-hard") <;>
    cases c <;> cases k <;> rfl

/-- No other leaf changes a limit. -/
theorem store_lft {has : CStr → Bool} {d : SrData} {n m : SadEntryNode} {leaf : SadLeaf}
    (hl : ∀ l, leaf ≠ limitLeaf l) (h : leaf.store has d n = some (.next m)) (c : Lifetime) (k : Limit) :
    lft c k m = lft c k n := by
  have hw := store_writes h
  cases leaf
  case time => exact absurd rfl (hl .time)
  case bytes => exact absurd rfl (hl .bytes)
  case packets => exact absurd rfl (hl .packets)
  case idle => exact absurd rfl (hl .idle)
  case start | key =>
    obtain ⟨x, y, rfl⟩ := hw
    cases c <;> cases k <;> rfl
  all_goals
    obtain ⟨x, rfl⟩ := hw
    cases c <;> cases k <;> rfl

/-! ## The limits of the schema -/

theorem nodeLeaf_lifetimeNode (c : Lifetime) (l : Limit) : nodeLeaf (lifetimeNode c l) = some (limitLeaf l) := by
  cases c <;> cases l <;> rfl

theorem sadSchema_limits :
    sadSchema.all (fun node => [Limit.time, .bytes, .packets, .idle].all fun l =>
      nodeLeaf node ≠ some (limitLeaf l) || node = lifetimeNode .hard l || node = lifetimeNode .soft l) = true := by
  decide +kernel

theorem lifetimeNode_of_leaf {s : Setting} {l : Limit} (h : nodeLeaf s.node = some (limitLeaf l)) :
    ∃ c, s.node = lifetimeNode c l := by
  have hall := List.all_eq_true.mp (List.all_eq_true.mp sadSchema_limits s.node s.mem) l (by cases l <;> simp)
  simp only [h, Bool.or_eq_true, decide_eq_true_eq, ne_eq, not_true_eq_false, decide_false, Bool.false_eq_true,
    false_or] at hall
  exact hall.elim (fun h => ⟨.hard, h⟩) fun h => ⟨.soft, h⟩

theorem limitLeaf_inj {k l : Limit} (h : limitLeaf k = limitLeaf l) : k = l := by
  cases k <;> cases l <;> first | rfl | cases h

/-- Which markers the path of a limit has. -/
theorem lifetimeNode_path (c : Lifetime) (l : Limit) (keys : List CStr) :
    strstr (pathOf (lifetimeNode c l).steps keys) (lit "/sa-lifetime-soft") = decide (c = .soft) ∧
      strstr (pathOf (lifetimeNode c l).steps keys) (lit "/sa-lifetime-hard") = decide (c = .hard) := by
  change strstr (pathOf (lifetimeNode c l).steps []) (lit "/sa-lifetime-soft") = _ ∧
    strstr (pathOf (lifetimeNode c l).steps []) (lit "/sa-lifetime-hard") = _
  cases c <;> cases l <;> decide +kernel

theorem lifetimeNode_inj {c c' : Lifetime} {k l : Limit} :
    lifetimeNode c k = lifetimeNode c' l ↔ c = c' ∧ k = l := by
  refine ⟨fun h => ?_, fun ⟨hc, hl⟩ => by rw [hc, hl]⟩
  have hleaf := congrArg nodeLeaf h
  rw [nodeLeaf_lifetimeNode, nodeLeaf_lifetimeNode] at hleaf
  have hpath := (lifetimeNode_path c k []).1
  rw [h, (lifetimeNode_path c' l []).1] at hpath
  refine ⟨?_, limitLeaf_inj (Option.some.inj hleaf)⟩
  cases c <;> cases c' <;> first | rfl | simp at hpath

/-! ## Reading limits -/

/-- What a setting puts into a limit of the node. -/
def putLimit (name : CStr) (c : Lifetime) (k : Limit) (s : Setting) : Option (BitVec 64) :=
  if s.node = lifetimeNode .soft k ∧ c = .soft ∨
      s.node = lifetimeNode .hard k ∧ (c = .soft ↔ strstr name (lit "/sa-lifetime-soft") = true) then
    some (int32 s.data.raw)
  else none

theorem readSadValue_lft (name : CStr) (c : Lifetime) (k : Limit) (s : Setting) (n m : SadEntryNode)
    (h : readSadValue (s.value name) n = some (.next m)) :
    lft c k m = (putLimit name c k s).getD (lft c k n) := by
  refine readSadValue_field (fun leaf => ∃ l, leaf = limitLeaf l) (fun leaf has hl hs => ?_)
    (fun leaf hl hleaf hs => ?_) (fun hleaf => ?_) h
  · exact store_lft (fun l e => hl ⟨l, e⟩) hs c k
  · obtain ⟨l, rfl⟩ := hl
    obtain ⟨c', hnode⟩ := lifetimeNode_of_leaf hleaf
    have hpath := lifetimeNode_path c' l s.keys
    rw [← hnode] at hpath
    rw [limitLeaf_store hs, strstr_xpath (isMarker_of_mem (by simp [markers])),
      strstr_xpath (isMarker_of_mem (by simp [markers])), Setting.path, hpath.1, hpath.2, putLimit, hnode]
    simp only [lifetimeNode_inj]
    by_cases hk : k = l
    · cases c <;> cases c' <;> cases strstr name (lit "/sa-lifetime-soft") <;> simp [hk]
    · simp [hk, Ne.symm hk]
  · have hne : ∀ c', s.node ≠ lifetimeNode c' k := fun c' e =>
      hleaf _ (by rw [e, nodeLeaf_lifetimeNode]) ⟨k, rfl⟩
    exact if_neg fun h => h.elim (fun h => hne _ h.1) fun h => hne _ h.1

/-- The limits of the node that is read. -/
theorem readSettings_lft {malloc : SadEntryNode} {name : CStr} {entry : List Setting} {n : SadEntryNode}
    (h : storeAll (fun s : Setting => readSadValue (s.value name)) entry
      ((createSadNode malloc).setName name) = some n) (c : Lifetime) (k : Limit) :
    lft c k n = int32
      (if strstr name (lit "/sa-lifetime-soft") then if c = .hard then 0 else lastLimit k entry
        else limit c k entry) := by
  have hzero : lft c k ((createSadNode malloc).setName name) = int32 0 := by
    cases c <;> cases k <;> rfl
  rw [storeAll_field (readSadValue_lft name c k) h, hzero]
  cases hsoft : strstr name (lit "/sa-lifetime-soft")
  · have hput : putLimit name c k = Option.map (fun d : SrData => int32 d.raw) ∘
        fun s => if s.node = lifetimeNode c k then some s.data else none := by
      funext s
      rw [putLimit, hsoft, Function.comp_apply]
      cases c <;> by_cases hs : s.node = lifetimeNode .soft k <;>
        by_cases hh : s.node = lifetimeNode .hard k <;> simp [hs, hh, lifetimeNode_inj]
    rw [hput, ← List.map_findSome?, limit, valueAt]
    cases entry.reverse.findSome? fun s => if s.node = lifetimeNode c k then some s.data else none <;> rfl
  cases c
  · have hnone : entry.reverse.findSome? (putLimit name .hard k) = none :=
      List.findSome?_eq_none_iff.mpr fun s _ => by rw [putLimit, hsoft]; simp
    rw [hnone]; rfl
  · have hput : putLimit name .soft k = Option.map int32 ∘ fun s =>
        if s.node = lifetimeNode .hard k ∨ s.node = lifetimeNode .soft k then some s.data.raw else none := by
      funext s
      rw [putLimit, hsoft, Function.comp_apply]
      by_cases hs : s.node = lifetimeNode .soft k <;>
        by_cases hh : s.node = lifetimeNode .hard k <;> simp [hs, hh, lifetimeNode_inj]
    rw [hput, ← List.map_findSome?, Option.getD_map, lastLimit]
    rfl

/-! ## The message -/

theorem limit_cases (k : Limit) (entry : List Setting) :
    lastLimit k entry = limit .hard k entry ∨ lastLimit k entry = limit .soft k entry := by
  rw [lastLimit, limit, limit, valueAt, valueAt]
  induction entry.reverse with
  | nil => exact .inl rfl
  | cons s xs ih =>
    simp only [List.findSome?_cons]
    by_cases hh : s.node = lifetimeNode .hard k
    · left; simp [hh]
    · by_cases hs : s.node = lifetimeNode .soft k
      · right; simp [hs]
      · simpa [hh, hs] using ih

theorem limit_admits {c : Lifetime} {k : Limit} {entry : List Setting} (hk : k ≠ .bytes) :
    (limit c k entry).toNat < 2 ^ 32 := by
  rw [limit]
  cases hv : valueAt (lifetimeNode c k) entry with
  | none => decide
  | some d =>
    have hd := valueAt_admits hv
    cases k
    case bytes => exact absurd rfl hk
    all_goals simpa [lifetimeNode, Limit.type, YangType.admits] using hd

/-- A limit of the node is the limit `v` on the wire. -/
def Carried : Limit → BitVec 64 → BitVec 64 → Prop
  | .packets, x, v => (x.setWidth 32).toNat = v.toNat
  | .time, x, v | .bytes, x, v | .idle, x, v => x = v

theorem carried_int32_iff {k : Limit} {v : BitVec 64} (h : k ≠ .bytes → v.toNat < 2 ^ 32) :
    Carried k (int32 v) v ↔ k.Fits v := by
  cases k
  case packets =>
    have hv := h (by decide)
    refine iff_of_true ?_ trivial
    rw [Carried, setWidth_int32, BitVec.toNat_setWidth, Nat.mod_eq_of_lt hv]
  case bytes => exact int32_eq_iff v
  all_goals
    have hv := h (by decide)
    rw [Carried, int32_eq_iff, Limit.Fits]
    omega

theorem carried_zero_iff {k : Limit} {v : BitVec 64} : Carried k (int32 0) v ↔ v = 0 := by
  have hzero : int32 0 = 0 := by decide
  cases k
  case packets =>
    rw [Carried, hzero, ← BitVec.toNat_inj]
    exact eq_comm
  all_goals
    rw [Carried, hzero]
    exact eq_comm

theorem carriesLimits_iff {e : MsgEnv} {n : SadEntryNode} {msg : Bytes} (h : pfAddsad e n = some msg)
    (entry : List Setting) :
    CarriesLimits msg entry ↔ ∀ c k, Carried k (lft c k n) (limit c k entry) := by
  obtain ⟨addrs, -, hs⟩ := pfAddsad_says h
  have hext : ∀ c : Lifetime, ∃ x, decode sadbLifetime msg c.ext = some x ∧
      x.allocations = (lft c .packets n).setWidth 32 ∧ x.bytes = lft c .bytes n ∧
      x.addtime = lft c .time n ∧ x.usetime = lft c .idle n := by
    rintro (_ | _)
    · exact ⟨_, hs.hard, rfl, rfl, rfl, rfl⟩
    · exact ⟨_, hs.soft, rfl, rfl, rfl, rfl⟩
  refine forall_congr' fun c => ?_
  obtain ⟨x, hx, hp, hb, ht, hi⟩ := hext c
  rw [hx]
  constructor
  · rintro ⟨y, hy, hp', hb', ht', hi'⟩ (_ | _ | _ | _)
    all_goals cases hy
    · exact ht.symm.trans ht'
    · exact hb.symm.trans hb'
    · rw [Carried, ← hp, hp']
    · exact hi.symm.trans hi'
  · intro hc
    exact ⟨x, rfl, hp ▸ hc .packets, hb.trans (hc .bytes), ht.trans (hc .time), hi.trans (hc .idle)⟩

/-- For which entries the limits reach the kernel: the message that adds the SA
carries them exactly when each fits an `int`, and the name of the entry does
not turn hard ones into soft ones. -/
theorem sad_lifetimes (malloc : SadEntryNode) (name : CStr) {entry : List Setting} (hne : entry ≠ []) :
    ∃ n, readSettings malloc name entry = some (.ok (), [], n) ∧
      ∀ e msg, pfAddsad e n = some msg → (CarriesLimits msg entry ↔ LimitsReach name entry) := by
  obtain ⟨n, hn, hread⟩ := readSettings_eq malloc name hne
  refine ⟨n, hread, fun e msg hmsg => ?_⟩
  have hfit : ∀ c k, Carried k (int32 (limit c k entry)) (limit c k entry) ↔ k.Fits (limit c k entry) :=
    fun c k => carried_int32_iff limit_admits
  rw [carriesLimits_iff hmsg, LimitsReach]
  simp only [readSettings_lft hn]
  split
  · constructor
    · intro h k
      have hhard : limit .hard k entry = 0 := carried_zero_iff.mp (h .hard k)
      have hsoft : Carried k (int32 (lastLimit k entry)) (limit .soft k entry) := h .soft k
      have hlast : lastLimit k entry = limit .soft k entry := by
        rcases limit_cases k entry with hl | hl
        · rw [hl, hhard] at hsoft ⊢
          exact (carried_zero_iff.mp hsoft).symm
        · exact hl
      rw [hlast] at hsoft
      exact ⟨hhard, hlast, (hfit .soft k).mp hsoft⟩
    · rintro h (_ | _) k
      · exact carried_zero_iff.mpr (h k).1
      · obtain ⟨-, hlast, hf⟩ := h k
        simp only [reduceCtorEq, if_false, hlast]
        exact (hfit .soft k).mpr hf
  · simp only [hfit]

/-- Soft limits of ten seconds and a thousand packets, as in `add_sad.xml`. -/
def softLimits : List Setting :=
  [configSetting [.child (lit "sa-lifetime-soft"), .child (lit "time")] (.uint 32) ⟨10, none⟩ (by decide +kernel) rfl,
   configSetting [.child (lit "sa-lifetime-soft"), .child (lit "packets")] (.uint 32) ⟨1000, none⟩
      (by decide +kernel) rfl]

theorem sad_lifetimes_soft :
    ∃ n msg, readSettings default (lit "gw") (addSadPrefixes ++ softLimits) = some (.ok (), [], n) ∧
      pfAddsad ⟨0, 0, 0⟩ n = some msg ∧ CarriesLimits msg (addSadPrefixes ++ softLimits) := by
  have hne : addSadPrefixes ++ softLimits ≠ [] := by simp [addSadPrefixes]
  obtain ⟨n, hread, h⟩ := sad_lifetimes default (lit "gw") hne
  have hadd : (readSettings default (lit "gw") (addSadPrefixes ++ softLimits)).any
      (fun r => (pfAddsad ⟨0, 0, 0⟩ r.2.2).isSome) = true := by decide +kernel
  rw [hread, Option.any_some] at hadd
  obtain ⟨msg, hmsg⟩ := Option.isSome_iff_exists.mp hadd
  refine ⟨n, msg, hread, hmsg, (h _ msg hmsg).mpr ?_⟩
  have hname : strstr (lit "gw") (lit "/sa-lifetime-soft") = false := by decide +kernel
  rw [LimitsReach, hname, if_neg Bool.false_ne_true]
  rintro (_ | _) (_ | _ | _ | _) <;> decide +kernel

/-- A hard limit of 2^32 bytes. -/
def hardBytes : Setting :=
  configSetting [.child (lit "sa-lifetime-hard"), .child (lit "bytes")] (.uint 64) ⟨2 ^ 32, none⟩ (by decide +kernel)
    (by decide +kernel)

/-- A limit of 2^32 bytes is added as none. -/
theorem sad_lifetimes_hard_bytes :
    ∃ n msg, readSettings default (lit "gw") (hardBytes :: addSadPrefixes) = some (.ok (), [], n) ∧
      pfAddsad ⟨0, 0, 0⟩ n = some msg ∧ limit .hard .bytes (hardBytes :: addSadPrefixes) = 2 ^ 32 ∧
      (decode sadbLifetime msg SADB_EXT_LIFETIME_HARD).map (·.bytes) = some 0 ∧
      ¬CarriesLimits msg (hardBytes :: addSadPrefixes) := by
  have hrun : (readSettings default (lit "gw") (hardBytes :: addSadPrefixes)).any (fun r =>
      r.1 = .ok () ∧ r.2.1 = [] ∧ (pfAddsad ⟨0, 0, 0⟩ r.2.2).any fun msg =>
        (decode sadbLifetime msg SADB_EXT_LIFETIME_HARD).map (·.bytes) = some 0) = true := by decide +kernel
  have hlimit : limit .hard .bytes (hardBytes :: addSadPrefixes) = 2 ^ 32 := by decide +kernel
  obtain ⟨⟨rc, it, n⟩, hread, h⟩ := (Option.any_eq_true _ _).mp hrun
  obtain ⟨rfl, rfl, h⟩ := of_decide_eq_true h
  obtain ⟨msg, hmsg, h⟩ := (Option.any_eq_true _ _).mp h
  have hbytes := of_decide_eq_true h
  refine ⟨n, msg, hread, hmsg, hlimit, hbytes, fun hc => ?_⟩
  obtain ⟨x, hx, -, hxb, -⟩ := hc .hard
  rw [show SADB_EXT_LIFETIME_HARD = Lifetime.hard.ext from rfl, hx] at hbytes
  exact absurd (hlimit.symm.trans (hxb.symm.trans (Option.some.inj hbytes))) (by decide)

end CfgIpsec.Proof
