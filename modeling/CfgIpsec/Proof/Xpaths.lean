import CfgIpsec.Proof.Settings
import CfgIpsec.Proof.State
import CfgIpsec.Spec.Xpaths

/-!
# XPaths that name an entry

The literal that a name is put into ends at the first quote of the name, if it
has one (`pathTests_entry`), so the paths of an entry address it exactly when
its name has none and is short enough for the buffers
(`entry_addressed_iff`).
-/

namespace CfgIpsec.Proof

open Impl Spec
open CStr (lit)

/-! ## Predicates -/

theorem cutAt_append_cons {c : Byte} {xs : Bytes} (h : c ∉ xs) (ys : Bytes) : cutAt c (xs ++ c :: ys) = some (xs, ys) := by
  induction xs with
  | nil => rw [List.nil_append, cutAt, if_pos rfl]
  | cons x xs ih =>
    obtain ⟨hx, hxs⟩ := not_or.mp (List.mem_cons.not.mp h)
    rw [List.cons_append, cutAt, if_neg fun e => hx e.symm, ih hxs]
    rfl

/-- A step of a path has no predicate. -/
theorem pathTests_step {name rest : Bytes} (hname : 0x2f ∉ name ∧ 0x5b ∉ name)
    (hrest : ∀ b ∈ rest.head?, ¬(b ≠ 0x2f ∧ b ≠ 0x5b)) (fuel : Nat) :
    pathTests (fuel + 1) (0x2f :: (name ++ rest)) = pathTests fuel rest := by
  have hdrop : (name ++ rest).dropWhile (fun b => b ≠ 0x2f ∧ b ≠ 0x5b) = rest := by
    have hplain : ∀ b ∈ name, b ≠ 0x2f ∧ b ≠ 0x5b := fun b hb =>
      ⟨fun hslash => hname.1 (hslash ▸ hb), fun hopen => hname.2 (hopen ▸ hb)⟩
    rw [List.dropWhile_append_of_pos fun b hb => decide_eq_true (hplain b hb)]
    cases rest with
    | nil => rfl
    | cons b rest => exact List.dropWhile_cons_of_neg (by simpa using hrest b rfl)
  rw [pathTests, if_pos rfl, hdrop]

theorem keyTest?_quoted {key literal : Bytes} (hkey : 0x3d ∉ key) (hliteral : 0x27 ∉ literal) (rest : Bytes) :
    keyTest? (key ++ 0x3d :: 0x27 :: (literal ++ 0x27 :: 0x5d :: rest)) = some (⟨key, literal⟩, rest) := by
  rw [keyTest?, cutAt_append_cons hkey]
  simp only [Option.bind_eq_bind, Option.bind_some, List.head?_cons, true_or, if_true, List.tail_cons,
    cutAt_append_cons hliteral]
  rfl

/-- The literal ends at the first quote, whatever follows. -/
theorem eq_of_keyTest? {key literal rest : Bytes} (hkey : 0x3d ∉ key) (hliteral : 0x27 ∉ literal) {r : KeyTest × Bytes}
    (h : keyTest? (key ++ 0x3d :: 0x27 :: (literal ++ 0x27 :: rest)) = some r) : r.1 = ⟨key, literal⟩ := by
  rw [keyTest?, cutAt_append_cons hkey] at h
  simp only [Option.bind_eq_bind, Option.bind_some, List.head?_cons, true_or, if_true, List.tail_cons,
    cutAt_append_cons hliteral] at h
  split at h
  · rename_i heq
    cases heq
    cases h
    rfl
  · cases h

/-! ## The path of an entry -/

/-- The steps above the predicate of an entry. -/
theorem bytes_entry (name rest : CStr) : (sadEntryXpath name ++ rest).bytes =
    0x2f :: ((lit "ietf-i2nsf-ikeless:ipsec-ikeless").bytes ++ 0x2f :: ((lit "sad").bytes ++ 0x2f ::
      ((lit "sad-entry").bytes ++ 0x5b :: ((lit "name").bytes ++ 0x3d :: 0x27 ::
        (name.bytes ++ 0x27 :: 0x5d :: rest.bytes))))) := by
  have hhead : entryHead.bytes = 0x2f :: ((lit "ietf-i2nsf-ikeless:ipsec-ikeless").bytes ++ 0x2f ::
      ((lit "sad").bytes ++ 0x2f :: ((lit "sad-entry").bytes ++ 0x5b :: ((lit "name").bytes ++ [0x3d])))) := rfl
  rw [CStr.bytes_append, bytes_sadEntryXpath, hhead]
  simp only [List.append_assoc, List.cons_append, List.nil_append]

theorem pathTests_entry (name rest : CStr) (fuel : Nat) :
    pathTests (fuel + 4) (sadEntryXpath name ++ rest).bytes =
      (keyTest? ((lit "name").bytes ++ 0x3d :: 0x27 :: (name.bytes ++ 0x27 :: 0x5d :: rest.bytes))).bind fun r =>
        (pathTests fuel r.2).map (r.1 :: ·) := by
  have hplain : ∀ s ∈ [lit "ietf-i2nsf-ikeless:ipsec-ikeless", lit "sad", lit "sad-entry"],
      0x2f ∉ s.bytes ∧ 0x5b ∉ s.bytes := by decide +kernel
  rw [bytes_entry, pathTests_step (hplain _ (by simp)) (by simp), pathTests_step (hplain _ (by simp)) (by simp),
    pathTests_step (hplain _ (by simp)) (by simp), pathTests, if_neg (by decide), if_pos rfl]
  simp only [Option.bind_eq_bind, Option.pure_def, Option.map_eq_bind]
  rfl

/-- A path below an entry addresses it when its name has no quote, and only
then. -/
theorem addresses_iff {name rest : CStr} (hrest : ∀ fuel, pathTests (fuel + 4) rest.bytes = some []) :
    Addresses (sadEntryXpath name ++ rest) name ↔ (0x27 : Byte) ∉ name.bytes := by
  have hkey : (0x3d : Byte) ∉ (lit "name").bytes := by decide
  have hlen : 8 ≤ (sadEntryXpath name ++ rest).bytes.length + 1 := by
    simp only [bytes_entry, List.length_cons, List.length_append]
    omega
  obtain ⟨fuel, hfuel⟩ := Nat.exists_eq_add_of_le' hlen
  rw [Addresses, hfuel, pathTests_entry]
  constructor
  · rintro ⟨t, ht, honly⟩ hquote
    obtain ⟨pre, post, hname, hpre⟩ := List.eq_append_cons_of_mem hquote
    obtain ⟨⟨t', bs⟩, hkt, ht⟩ := Option.bind_eq_some_iff.mp ht
    obtain ⟨ts, -, ht⟩ := Option.map_eq_some_iff.mp ht
    cases ht
    rw [hname, List.append_assoc, List.cons_append] at hkt
    have hpart := eq_of_keyTest? hkey hpre hkt
    have hwhole := congrArg KeyTest.literal (hpart.symm.trans ((honly name).mpr rfl))
    have hlen := congrArg List.length (hwhole.trans hname)
    simp only [List.length_append, List.length_cons] at hlen
    omega
  · intro hquote
    rw [keyTest?_quoted hkey hquote, Option.bind_some, hrest, Option.map_some]
    refine ⟨_, rfl, fun other => ?_⟩
    rw [KeyTest.mk.injEq, eq_self, true_and, ← CStr.ext_iff]
    exact eq_comm

/-! ## Buffers -/

theorem statePath_eq (name leaf : CStr) :
    statePath stateXpath name leaf =
      if strlen (currentPath name leaf) < MAX_PATH then some (currentPath name leaf) else none := by
  rw [statePath, catPath]
  split
  · rfl
  · rename_i hlong
    rw [if_neg]
    · rfl
    · rw [currentPath, strlen_append]
      omega

/-- Where the leaf of an entry is. -/
theorem currentPath_eq (name leaf : CStr) :
    currentPath name leaf = sadEntryXpath name ++ (lit "/ipsec-sa-state/sa-lifetime-current" ++ leaf) := by
  have hhead : (stateXpath ++ lit "[name='").bytes =
      (lit "/ietf-i2nsf-ikeless:ipsec-ikeless/sad/sad-entry[name='").bytes := rfl
  have hbelow : (lit "']/ipsec-sa-state/sa-lifetime-current").bytes =
      (lit "']").bytes ++ (lit "/ipsec-sa-state/sa-lifetime-current").bytes := rfl
  refine CStr.ext ?_
  simp only [currentPath, sadEntryXpath, CStr.bytes_append, ← hhead, hbelow, List.append_assoc]

theorem strlen_sadEntryXpath (name : CStr) : strlen (sadEntryXpath name) = strlen name + 56 := by
  have hhead : strlen (lit "/ietf-i2nsf-ikeless:ipsec-ikeless/sad/sad-entry[name='") = 54 := rfl
  have htail : strlen (lit "']") = 2 := rfl
  rw [sadEntryXpath, strlen_append, strlen_append, hhead, htail]
  omega

theorem strlen_currentPath (name leaf : CStr) : strlen (currentPath name leaf) = strlen name + 91 + strlen leaf := by
  have hbelow : strlen (lit "/ipsec-sa-state/sa-lifetime-current") = 35 := rfl
  rw [currentPath_eq, strlen_append, strlen_append, strlen_sadEntryXpath, hbelow]
  omega

theorem mem_newTree {e : StateEnv} {o : StateData} {path text : CStr} {p : CStr × CStr}
    (h : p ∈ (o.newTree e path text).made) : p ∈ o.made ∨ p.1 = path := by
  rw [StateData.newTree] at h
  split at h
  · rcases List.mem_append.mp h with h | h
    · exact .inl h
    · exact .inr (congrArg Prod.fst (List.mem_singleton.mp h))
  · exact .inl h

theorem mem_newPath {e : StateEnv} {o : StateData} {path text : CStr} {p : CStr × CStr}
    (h : p ∈ (o.newPath e path text).made) : p ∈ o.made ∨ p.1 = path := by
  rw [StateData.newPath] at h
  split at h
  · rcases List.mem_append.mp h with h | h
    · exact .inl h
    · exact .inr (congrArg Prod.fst (List.mem_singleton.mp h))
  · exact .inl h

/-- The paths the loop of `get_sad_state` makes are those of its entries. -/
theorem stateLoop_paths {e : StateEnv} {xpath : CStr} {first : Bool} {lookups : List LifetimeEnv}
    {nodes nodes' : List SadEntryNode} {o o' : StateData} {rc : Rc}
    (h : stateLoop e xpath first lookups nodes o = some (rc, nodes', o')) {p : CStr × CStr} (hp : p ∈ o'.made) :
    p ∈ o.made ∨ ∃ n ∈ nodes, ∃ leaf ∈ stateLeaves, statePath xpath n.name leaf = some p.1 := by
  induction nodes generalizing first lookups nodes' o o' rc with
  | nil =>
    rw [stateLoop] at h
    cases h
    exact .inl hp
  | cons n nodes ih =>
    rcases lookups with _ | ⟨l, lookups⟩
    · rw [stateLoop] at h; cases h
    rw [stateLoop] at h
    obtain ⟨newXpath, hnew, h⟩ := Option.bind_eq_some_iff.mp h
    obtain ⟨⟨msg, found, n'⟩, -, h⟩ := Option.bind_eq_some_iff.mp h
    rcases found with err | _
    · cases h
      exact .inl hp
    obtain ⟨bytes, hbytes, h⟩ := Option.bind_eq_some_iff.mp h
    obtain ⟨packets, hpackets, h⟩ := Option.bind_eq_some_iff.mp h
    obtain ⟨idle, hidle, h⟩ := Option.bind_eq_some_iff.mp h
    obtain ⟨time, htime, h⟩ := Option.bind_eq_some_iff.mp h
    obtain ⟨⟨rc', rest, o₁⟩, hloop, h⟩ := Option.bind_eq_some_iff.mp h
    cases h
    have hhere : ∀ leaf ∈ stateLeaves, ∀ path, catPath newXpath leaf = some path → p.1 = path →
        ∃ m ∈ n :: nodes, ∃ leaf ∈ stateLeaves, statePath xpath m.name leaf = some p.1 := by
      rintro leaf hleaf path hpath rfl
      exact ⟨n, List.mem_cons_self, leaf, hleaf, Option.bind_eq_some_iff.mpr ⟨newXpath, hnew, hpath⟩⟩
    rcases ih hloop hp with hmem | ⟨m, hm, hpath⟩
    · -- the four paths of this entry, the last one first
      rcases mem_newPath hmem with hmem | hmem
      · rcases mem_newPath hmem with hmem | hmem
        · rcases mem_newPath hmem with hmem | hmem
          · split at hmem
            · exact (mem_newTree hmem).imp_right (hhere _ (by simp [stateLeaves]) bytes hbytes)
            · exact (mem_newPath hmem).imp_right (hhere _ (by simp [stateLeaves]) bytes hbytes)
          · exact .inr (hhere _ (by simp [stateLeaves]) packets hpackets hmem)
        · exact .inr (hhere _ (by simp [stateLeaves]) idle hidle hmem)
      · exact .inr (hhere _ (by simp [stateLeaves]) time htime hmem)
    · exact .inr ⟨m, List.mem_cons_of_mem _ hm, hpath⟩

/-- The path of a delete request is printed for the entry with the SPI. -/
theorem deleteItem_path {e : DeleteEnv} {sad : List SadEntryNode} {spi : BitVec 64} {acts : List Action} {xpath : CStr}
    (h : sendDeleteSadRequest e sad spi = some acts) (hx : .deleteItem xpath ∈ acts) :
    ∃ n, getSadNodeBySpi sad spi = some n ∧ deleteXpath n.name = some xpath := by
  rw [sendDeleteSadRequest] at h
  split at h
  · obtain ⟨n, hn, h⟩ := Option.bind_eq_some_iff.mp h
    obtain ⟨path, hpath, h⟩ := Option.bind_eq_some_iff.mp h
    have hsame : xpath = path := by
      split at h <;> cases h <;> simpa using hx
    exact ⟨n, hn, hsame ▸ hpath⟩
  · cases h
    cases hx

/-- No predicate is below an entry. -/
theorem pathTests_leaf {leaf : CStr} (h : leaf ∈ stateLeaves) (fuel : Nat) :
    pathTests (fuel + 4) (lit "/ipsec-sa-state/sa-lifetime-current" ++ leaf).bytes = some [] := by
  have hplain : ∀ s ∈ [lit "ipsec-sa-state", lit "sa-lifetime-current"], 0x2f ∉ s.bytes ∧ 0x5b ∉ s.bytes := by
    decide +kernel
  have hleaf : ∀ leaf ∈ stateLeaves, leaf.bytes = 0x2f :: leaf.bytes.tail ∧
      0x2f ∉ leaf.bytes.tail ∧ 0x5b ∉ leaf.bytes.tail := by decide +kernel
  have hbytes : (lit "/ipsec-sa-state/sa-lifetime-current").bytes =
      0x2f :: ((lit "ipsec-sa-state").bytes ++ 0x2f :: (lit "sa-lifetime-current").bytes) := rfl
  obtain ⟨hslash, htail⟩ := hleaf leaf h
  have hnone : ∀ b ∈ ([] : Bytes).head?, ¬(b ≠ 0x2f ∧ b ≠ 0x5b) := by simp
  have hlast := pathTests_step htail hnone (fuel + 1)
  rw [List.append_nil] at hlast
  rw [CStr.bytes_append, hbytes, hslash, List.cons_append, List.append_assoc, List.cons_append,
    pathTests_step (hplain _ (by simp)) (by simp), pathTests_step (hplain _ (by simp)) (by simp), hlast]
  rfl

/-- The paths of an entry fit and address it exactly when its name has no
apostrophe and at most 100 bytes. -/
theorem entry_addressed_iff (name : CStr) : AddressesEntry name ↔ (0x27 : Byte) ∉ name.bytes ∧ strlen name ≤ 100 := by
  have hnone : ∀ fuel, pathTests (fuel + 4) (lit "").bytes = some [] := fun fuel => by rw [lit_nil, pathTests]
  have hself : sadEntryXpath name = sadEntryXpath name ++ lit "" := by
    refine CStr.ext ?_
    rw [CStr.bytes_append, lit_nil, List.append_nil]
  have hpackets : lit "/packets" ∈ stateLeaves := by simp [stateLeaves]
  have hlen : ∀ leaf ∈ stateLeaves, strlen leaf ≤ 8 := by decide +kernel
  have hmax : MAX_PATH = 200 := rfl
  constructor
  · rintro ⟨-, hstate⟩
    obtain ⟨path, hpath, haddr⟩ := hstate _ hpackets
    rw [statePath_eq] at hpath
    split at hpath
    · rename_i hfit
      have height : strlen (lit "/packets") = 8 := rfl
      cases hpath
      rw [strlen_currentPath, height] at hfit
      rw [currentPath_eq] at haddr
      exact ⟨(addresses_iff (pathTests_leaf hpackets)).mp haddr, by omega⟩
    · cases hpath
  · rintro ⟨hquote, hshort⟩
    refine ⟨⟨sadEntryXpath name, if_pos ?_, ?_⟩, fun leaf hleaf => ⟨currentPath name leaf, ?_, ?_⟩⟩
    · rw [strlen_sadEntryXpath]
      omega
    · rw [hself]
      exact (addresses_iff hnone).mpr hquote
    · have := hlen leaf hleaf
      rw [statePath_eq, if_pos]
      rw [strlen_currentPath]
      omega
    · rw [currentPath_eq]
      exact (addresses_iff (pathTests_leaf hleaf)).mpr hquote

/-- The literal for a name with an apostrophe ends there, and no path is left. -/
theorem entry_addressed_quote :
    strlen (lit "site'b") < MAX_PATH ∧
      deleteXpath (lit "site'b") = some (lit "/ietf-i2nsf-ikeless:ipsec-ikeless/sad/sad-entry[name='site'b']") ∧
      ¬AddressesEntry (lit "site'b") := by
  have hpath : deleteXpath (lit "site'b") =
      some (lit "/ietf-i2nsf-ikeless:ipsec-ikeless/sad/sad-entry[name='site'b']") := by decide +kernel
  refine ⟨by decide +kernel, hpath, fun h => ?_⟩
  obtain ⟨path, hp, t, htests, -⟩ := h.delete
  rw [hpath, Option.some_inj] at hp
  have hno : pathTests ((lit "/ietf-i2nsf-ikeless:ipsec-ikeless/sad/sad-entry[name='site'b']").bytes.length + 1)
      (lit "/ietf-i2nsf-ikeless:ipsec-ikeless/sad/sad-entry[name='site'b']").bytes = none := by decide +kernel
  rw [← hp, hno] at htests
  cases htests

end CfgIpsec.Proof
