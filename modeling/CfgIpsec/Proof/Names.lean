import CfgIpsec.Proof.Settings
import CfgIpsec.Spec.Reaches

/-!
# Names in xpaths

The reader looks for the container of a setting in its whole xpath, and so
finds it in the name of the entry as well. `sad_name_read_alike`: two names are
read alike exactly when they contain the same markers.
-/

namespace CfgIpsec.Proof

open Impl Spec
open CStr (lit)

/-- Whether a leaf is one of the lifetimes. -/
def isLimit : SadLeaf → Bool
  | .time | .bytes | .packets | .idle => true
  | _ => false

/-- A lifetime is below one of the two containers of lifetimes, without keys on
its path. -/
def limitOk (node : SchemaNode) : Bool :=
  (nodeLeaf node).all fun leaf => !isLimit leaf ||
    (node.steps.all fun st => st = .child st.name) &&
      (strstr (pathOf node.steps []) (lit "/sa-lifetime-soft") ||
        strstr (pathOf node.steps []) (lit "/sa-lifetime-hard"))

theorem sadSchema_limitOk : sadSchema.all limitOk = true := by decide +kernel

theorem pathOf_child {steps : List Step} (h : ∀ st ∈ steps, st = .child st.name) (keys : List CStr) :
    pathOf steps keys = pathOf steps [] := by
  induction steps with
  | nil => rw [pathOf, pathOf]
  | cons st steps ih =>
    obtain ⟨hst, hs⟩ := List.forall_mem_cons.mp h
    rw [hst, pathOf, pathOf, ih hs]

theorem limit_path {s : Setting} {leaf : SadLeaf} (hl : nodeLeaf s.node = some leaf) (h : isLimit leaf = true) :
    strstr s.path (lit "/sa-lifetime-soft") = true ∨ strstr s.path (lit "/sa-lifetime-hard") = true := by
  have hok := List.all_eq_true.mp sadSchema_limitOk s.node s.mem
  rw [limitOk, hl, Option.all_some, h, Bool.not_true, Bool.false_or, Bool.and_eq_true, Bool.or_eq_true] at hok
  rw [Setting.path, pathOf_child (by simpa using hok.1)]
  exact hok.2

/-! ## Names with the same markers -/

theorem store_congr {has has' : CStr → Bool} {leaf : SadLeaf} (h : ∀ m ∈ markers, has m = has' m)
    (hl : isLimit leaf = true → has (lit "/sa-lifetime-soft") = true ∨
      has (lit "/sa-lifetime-hard") = true ∧ has' (lit "/sa-lifetime-hard") = true)
    (d : SrData) (n : SadEntryNode) : leaf.store has d n = leaf.store has' d n := by
  simp only [markers, List.forall_mem_cons, List.not_mem_nil, false_implies, implies_true, and_true] at h
  obtain ⟨hlp, hrp, henc, hint, hsoft⟩ := h
  have hlimit : isLimit leaf = true → ∀ soft hard : BitVec 64 → SadEntryNode,
      storeLifetime has d soft hard n = storeLifetime has' d soft hard n := by
    intro hlt soft hard
    rw [storeLifetime, storeLifetime, ← hsoft]
    rcases hl hlt with hs | ⟨hh, hh'⟩
    · rw [if_pos hs, if_pos hs]
    · rw [hh, hh']
  cases leaf
  case start => simp only [SadLeaf.store, hlp, hrp]
  case key => simp only [SadLeaf.store, henc, hint]
  case time | bytes | packets | idle => simp only [SadLeaf.store, hlimit rfl]
  all_goals rfl

theorem readSadValue_congr {x y : CStr} (h : ∀ m ∈ markers, strstr x m = strstr y m) (s : Setting)
    (n : SadEntryNode) : readSadValue (s.value x) n = readSadValue (s.value y) n := by
  rw [readSadValue_setting, readSadValue_setting]
  cases hl : nodeLeaf s.node with
  | none => rfl
  | some leaf =>
    refine store_congr (fun m hm => ?_) (fun hlt => ?_) s.data n
    · have hmark := isMarker_of_mem (List.mem_cons_of_mem _ hm)
      rw [strstr_xpath hmark, strstr_xpath hmark, h m hm]
    · have hsoft : isMarker (lit "/sa-lifetime-soft") = true :=
        isMarker_of_mem (List.mem_cons_of_mem _ (by simp [markers]))
      have hhard : isMarker (lit "/sa-lifetime-hard") = true := isMarker_of_mem List.mem_cons_self
      rw [strstr_xpath hsoft, strstr_xpath hhard, strstr_xpath hhard]
      rcases limit_path hl hlt with hp | hp
      · left; rw [hp, Bool.or_true]
      · right; rw [hp, Bool.or_true, Bool.or_true]; exact ⟨rfl, rfl⟩

/-- Settings are read alike into nodes of any name. -/
theorem storeAll_nameless {x y : CStr} {entry : List Setting} {c n : SadEntryNode}
    (h : storeAll (fun s : Setting => readSadValue (s.value x)) entry (c.setName y) = some n) :
    storeAll (fun s : Setting => readSadValue (s.value x)) entry (nameless c) = some (nameless n) := by
  have hcomm := storeAll_comm (fun (s : Setting) k => readSadValue_rename (lit "") (s.value x) k) entry
    (c.setName y)
  rw [h] at hcomm
  exact hcomm

theorem readAlike_of_markers {x y : CStr} (h : ∀ m ∈ markers, strstr x m = strstr y m) : ReadAlike x y := by
  intro malloc entry
  rcases eq_or_ne entry [] with rfl | hne
  · rfl
  obtain ⟨n, hn, hx⟩ := readSettings_eq malloc x hne
  obtain ⟨m, hm, hy⟩ := readSettings_eq malloc y hne
  have hfun : (fun s : Setting => readSadValue (s.value x)) = fun s => readSadValue (s.value y) :=
    funext fun s => funext (readSadValue_congr h s)
  have hxy := (storeAll_nameless hn).symm.trans (hfun ▸ storeAll_nameless hm)
  rw [hx, hy, Option.map_some, Option.map_some, Option.some.inj hxy]

/-! ## Names with different markers -/

/-- A setting of which the path has the marker `m'` but not `m` tells the names
that contain `m`, when its leaf is stored differently with both and with `m'`
alone. -/
theorem marker_eq_of_readAlike {β : Type} {m : CStr} (m' : CStr) (s : Setting) (leaf : SadLeaf)
    (get : SadEntryNode → β) (a b : β) (hm : m ∈ lit "/sa-lifetime-hard" :: markers)
    (hm' : m' ∈ lit "/sa-lifetime-hard" :: markers) (hleaf : nodeLeaf s.node = some leaf)
    (hlacks : strstr s.path m = false) (hhas : strstr s.path m' = true) (hab : a ≠ b)
    (hname : ∀ n, get (nameless n) = get n)
    (hstore : ∀ has : CStr → Bool, has m' = true → ∀ x, ∃ n,
      leaf.store has s.data ((createSadNode default).setName x) = some (.next n) ∧ get n = if has m then a else b)
    {x y : CStr} (hxy : ReadAlike x y) : strstr x m = strstr y m := by
  have hread : ∀ x, ∃ n, readSettings default x [s] = some (.ok (), [], n) ∧
      get n = if strstr x m then a else b := by
    intro x
    have hxm : strstr (sadEntryXpath x ++ s.path) m = strstr x m := by
      rw [strstr_xpath (isMarker_of_mem hm), hlacks, Bool.or_false]
    have hxm' : strstr (sadEntryXpath x ++ s.path) m' = true := by
      rw [strstr_xpath (isMarker_of_mem hm'), hhas, Bool.or_true]
    obtain ⟨n, hn, hread⟩ := readSettings_eq default x (List.cons_ne_nil s [])
    obtain ⟨n', hn', hget⟩ := hstore _ hxm' x
    obtain ⟨n₁, hn₁, hnil⟩ := storeAll_cons.mp hn
    rw [readSadValue_setting, hleaf] at hn₁
    obtain rfl : n₁ = n' := by simpa [hn'] using hn₁.symm
    cases hnil
    exact ⟨_, hread, by rw [hget, hxm]⟩
  obtain ⟨n, hn, hx⟩ := hread x
  obtain ⟨n', hn', hy⟩ := hread y
  have heq := hxy default [s]
  rw [hn, hn', Option.map_some, Option.map_some] at heq
  have hget : get n = get n' := by
    rw [← hname n, ← hname n']
    exact congrArg (fun r => get r.2.2) (Option.some.inj heq)
  rw [hx, hy] at hget
  cases hsx : strstr x m <;> cases hsy : strstr y m
  · rfl
  · rw [hsx, hsy] at hget; exact absurd hget.symm hab
  · rw [hsx, hsy] at hget; exact absurd hget hab
  · rfl

/-- The first of a range of remote ports. -/
def remotePort : Setting :=
  configSetting [.child (lit "traffic-selector"), .item (lit "remote-ports"), .child (lit "start")] (.uint 16)
    ⟨1, none⟩ (by decide +kernel) rfl

/-- The first of a range of local ports. -/
def localPort : Setting :=
  configSetting [.child (lit "traffic-selector"), .item (lit "local-ports"), .child (lit "start")] (.uint 16)
    ⟨1, none⟩ (by decide +kernel) rfl

/-- An encryption key of a byte. -/
def shortKey : Setting := encryptionKey "01" (by decide +kernel)

/-- An integrity key. -/
def integrityKey : Setting :=
  configSetting [.child (lit "esp-sa"), .child (lit "integrity"), .child (lit "key")] .hexString
    ⟨0, some (lit "01")⟩ (by decide +kernel) (by decide +kernel)

/-- A hard lifetime of a second. -/
def hardTime : Setting :=
  configSetting [.child (lit "sa-lifetime-hard"), .child (lit "time")] (.uint 32) ⟨1, none⟩ (by decide +kernel) rfl

theorem localPorts_eq {x y : CStr} (h : ReadAlike x y) :
    strstr x (lit "/local-ports") = strstr y (lit "/local-ports") := by
  refine marker_eq_of_readAlike (lit "/remote-ports") remotePort .start (·.srcport) 1 0 (by simp [markers])
    (by simp [markers]) (by decide +kernel) (by decide +kernel) (by decide +kernel) (by decide) (fun _ => rfl)
    (fun has hhas z => ?_) h
  simp only [SadLeaf.store, hhas]
  cases has (lit "/local-ports")
  · exact ⟨_, rfl, rfl⟩
  · exact ⟨_, rfl, rfl⟩

theorem remotePorts_eq {x y : CStr} (h : ReadAlike x y) :
    strstr x (lit "/remote-ports") = strstr y (lit "/remote-ports") := by
  refine marker_eq_of_readAlike (lit "/local-ports") localPort .start (·.dstport) 1 0 (by simp [markers])
    (by simp [markers]) (by decide +kernel) (by decide +kernel) (by decide +kernel) (by decide) (fun _ => rfl)
    (fun has hhas z => ?_) h
  simp only [SadLeaf.store, hhas]
  cases has (lit "/remote-ports")
  · exact ⟨_, rfl, rfl⟩
  · exact ⟨_, rfl, rfl⟩

theorem encryption_eq {x y : CStr} (h : ReadAlike x y) :
    strstr x (lit "/encryption") = strstr y (lit "/encryption") := by
  refine marker_eq_of_readAlike (lit "/integrity") integrityKey .key (·.encryptionKey) (.ofBuf [1]) (lit "")
    (by simp [markers]) (by simp [markers]) (by decide +kernel) (by decide +kernel) (by decide +kernel)
    (by decide +kernel) (fun _ => rfl) (fun has hhas z => ?_) h
  have hhex : copyHex integrityKey.data = some (.ofBuf [1]) := copyHex_eq rfl (by decide +kernel)
  simp only [SadLeaf.store, hhas, hhex]
  cases has (lit "/encryption")
  · exact ⟨_, rfl, rfl⟩
  · exact ⟨_, rfl, rfl⟩

theorem integrity_eq {x y : CStr} (h : ReadAlike x y) :
    strstr x (lit "/integrity") = strstr y (lit "/integrity") := by
  refine marker_eq_of_readAlike (lit "/encryption") shortKey .key (·.integrityKey) (.ofBuf [1])
    (lit "") (by simp [markers]) (by simp [markers]) (by decide +kernel) (by decide +kernel) (by decide +kernel)
    (by decide +kernel) (fun _ => rfl) (fun has hhas z => ?_) h
  have hhex : copyHex shortKey.data = some (.ofBuf [1]) := copyHex_eq rfl (by decide +kernel)
  simp only [SadLeaf.store, hhas, hhex]
  cases has (lit "/integrity")
  · exact ⟨_, rfl, rfl⟩
  · exact ⟨_, rfl, rfl⟩

theorem soft_eq {x y : CStr} (h : ReadAlike x y) :
    strstr x (lit "/sa-lifetime-soft") = strstr y (lit "/sa-lifetime-soft") := by
  refine marker_eq_of_readAlike (lit "/sa-lifetime-hard") hardTime .time (·.lftTimeHard) 0 1 (by simp [markers])
    (by simp [markers]) (by decide +kernel) (by decide +kernel) (by decide +kernel) (by decide) (fun _ => rfl)
    (fun has hhas z => ?_) h
  simp only [SadLeaf.store, storeLifetime, hhas]
  cases has (lit "/sa-lifetime-soft")
  · exact ⟨_, rfl, rfl⟩
  · exact ⟨_, rfl, rfl⟩

/-- For which names the name of an entry does not matter: two names are read
alike exactly when they contain the same markers. -/
theorem sad_name_read_alike (x y : CStr) : ReadAlike x y ↔ ∀ m ∈ markers, strstr x m = strstr y m := by
  refine ⟨fun h => ?_, readAlike_of_markers⟩
  simp only [markers, List.forall_mem_cons, List.not_mem_nil, false_implies, implies_true, and_true]
  exact ⟨localPorts_eq h, remotePorts_eq h, encryption_eq h, integrity_eq h, soft_eq h⟩

/-- A name that ends in `/sa-lifetime-soft` turns the hard lifetime of its entry
into a soft one. -/
theorem sad_name_soft :
    (readSettings default (lit "gw") [hardTime]).map (fun r => (r.2.2.lftTimeHard, r.2.2.lftTimeSoft)) =
        some (1, 0) ∧
      (readSettings default (lit "gw/sa-lifetime-soft") [hardTime]).map
        (fun r => (r.2.2.lftTimeHard, r.2.2.lftTimeSoft)) = some (0, 1) ∧
      ¬ReadAlike (lit "gw") (lit "gw/sa-lifetime-soft") := by
  refine ⟨by decide +kernel, by decide +kernel, fun h => ?_⟩
  have heq := soft_eq h
  revert heq
  decide +kernel

end CfgIpsec.Proof
