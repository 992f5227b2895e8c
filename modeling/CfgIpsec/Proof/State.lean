import CfgIpsec.Proof.Current
import CfgIpsec.Spec.State

/-!
# State data that is not reported

The callback looks for a module of another name than the one it is registered
for, so it makes nothing (`sad_state_iff`). Under the name it looks for it goes
over the whole list, and prints of each counter what 32 bits hold
(`getSadState_compared`).
-/

namespace CfgIpsec.Proof

open Impl Spec
open CStr (lit)

/-! ## The loop -/

/-- The search for a listed SA finds its counters. -/
theorem lookup_listed (a : ListedSa) :
    pfGetSadLifetimeCurrentBySpi a.env a.node =
      some (sadDumpMessage a.pid, .ok (), withCounters a.node a.reply.counters) := by
  have hloop := lifetimeLoop_dump a.dump.init a.dump.last a.dump.more a.dump.done a.rest a.stack a.node
  have hfound := a.found
  rw [DumpOf.replies] at hfound
  rw [hfound] at hloop
  rw [pfGetSadLifetimeCurrentBySpi, ListedSa.env, dumpEnv, DumpOf.datagrams, DumpOf.replies, hloop]
  rfl

/-- What the loop makes of the counters of an entry. -/
def printed (a : ListedSa) : List (CStr × CStr) :=
  (currentLeaves a.reply.counters).map fun leaf => (currentPath a.node.name leaf.1, printU leaf.2)

theorem catPath_eq {s t : CStr} (h : strlen (s ++ t) < MAX_PATH) : catPath s t = some (s ++ t) := if_pos h

theorem newTree_eq {e : StateEnv} (hnew : ∀ p t, e.newPath p t = true) (o : StateData) (p t : CStr) :
    o.newTree e p t = ⟨true, o.made ++ [(p, t)]⟩ := if_pos (hnew p t)

theorem newPath_eq {e : StateEnv} (hnew : ∀ p t, e.newPath p t = true) (made : List (CStr × CStr)) (p t : CStr) :
    StateData.newPath e ⟨true, made⟩ p t = ⟨true, made ++ [(p, t)]⟩ := if_pos ⟨rfl, hnew p t⟩

/-- The paths of one entry: a tree is there, or the entry makes it. -/
theorem entry_made {e : StateEnv} (hnew : ∀ p t, e.newPath p t = true) (a : ListedSa) {first : Bool} {o : StateData}
    (ho : first = true ∨ o.parent = true) :
    ((((if first = true then o.newTree e (currentPath a.node.name (lit "/bytes")) (printU a.reply.counters.bytes)
        else o.newPath e (currentPath a.node.name (lit "/bytes")) (printU a.reply.counters.bytes)).newPath e
      (currentPath a.node.name (lit "/packets")) (printU a.reply.counters.packets)).newPath e
      (currentPath a.node.name (lit "/idle")) (printU a.reply.counters.idle)).newPath e
      (currentPath a.node.name (lit "/time")) (printU a.reply.counters.time)) = ⟨true, o.made ++ printed a⟩ := by
  have hfirst : ∀ p t, (if first = true then o.newTree e p t else o.newPath e p t) = ⟨true, o.made ++ [(p, t)]⟩ := by
    intro p t
    rcases ho with rfl | ho
    · exact newTree_eq hnew o p t
    · obtain ⟨tree, made⟩ := o
      obtain rfl : tree = true := ho
      rw [newPath_eq hnew]
      split
      · exact newTree_eq hnew _ p t
      · rfl
  rw [hfirst, newPath_eq hnew, newPath_eq hnew, newPath_eq hnew]
  simp only [List.append_assoc]
  rfl

/-- The loop makes the paths of all entries. -/
theorem stateLoop_listed {e : StateEnv} (hnew : ∀ p t, e.newPath p t = true) {sas : List ListedSa}
    (hfit : ∀ a ∈ sas, ∀ leaf ∈ currentLeaves a.reply.counters, strlen (currentPath a.node.name leaf.1) < MAX_PATH)
    {first : Bool} {o : StateData} (ho : first = true ∨ o.parent = true) :
    ∃ parent, stateLoop e stateXpath first (sas.map (·.env)) (sas.map (·.node)) o =
      some (.ok (), sas.map fun a => withCounters a.node a.reply.counters, ⟨parent, o.made ++ sas.flatMap printed⟩) := by
  induction sas generalizing first o with
  | nil => exact ⟨o.parent, by rw [List.flatMap_nil, List.append_nil]; rfl⟩
  | cons a sas ih =>
    obtain ⟨ha, hfit⟩ := List.forall_mem_cons.mp hfit
    obtain ⟨hbytes, hpackets, hidle, htime, -⟩ : _ ∧ _ ∧ _ ∧ _ ∧ _ := by
      simpa only [currentLeaves, List.forall_mem_cons] using ha
    have hbase := hbytes
    rw [currentPath, strlen_append] at hbase
    obtain ⟨parent, hrest⟩ := @ih hfit false ⟨true, o.made ++ printed a⟩ (.inr rfl)
    refine ⟨parent, ?_⟩
    rw [List.map_cons, List.map_cons, stateLoop, catPath_eq (by omega), lookup_listed]
    simp only [Option.bind_eq_bind, Option.bind_some]
    rw [catPath_eq hbytes, catPath_eq hpackets, catPath_eq hidle, catPath_eq htime]
    simp only [Option.bind_some]
    have hmade := entry_made hnew a ho
    simp only [currentPath] at hmade
    simp only [bytes_withCounters, packets_withCounters, idle_withCounters, time_withCounters]
    rw [hmade, hrest, Option.bind_some, List.map_cons, List.flatMap_cons, List.append_assoc]
    rfl

/-- Under the name that it looks for, the callback makes the paths of all
entries, with the counters as far as 32 bits hold them. -/
theorem getSadState_compared {sas : List ListedSa} {newPath : CStr → CStr → Bool} (hnew : ∀ p t, newPath p t = true)
    (hfit : ∀ a ∈ sas, ∀ leaf ∈ currentLeaves a.reply.counters, strlen (currentPath a.node.name leaf.1) < MAX_PATH)
    (parent : Bool) :
    ∃ parent', getSadState ⟨sas.map (·.env), newPath⟩ (lit "ietf-ipsec-ikeless") stateXpath (sas.map (·.node)) parent =
      some (.ok (), sas.map fun a => withCounters a.node a.reply.counters, ⟨parent', sas.flatMap printed⟩) := by
  obtain ⟨parent', hloop⟩ := @stateLoop_listed ⟨sas.map (·.env), newPath⟩ hnew sas hfit true ⟨parent, []⟩ (.inl rfl)
  rw [getSadState, if_pos ⟨rfl, rfl⟩, hloop, List.nil_append]
  exact ⟨parent', rfl⟩

/-! ## The registered name -/

/-- Under the name it is registered for, the callback makes nothing. -/
theorem sadStateCb_registered (e : StateEnv) (nodes : List SadEntryNode) (parent : Bool) :
    sadStateCb e stateModule stateXpath nodes parent = some (.ok (), nodes, ⟨parent, []⟩) := by
  have hname : stateModule ≠ lit "ietf-ipsec-ikeless" := by decide +kernel
  rw [sadStateCb, getSadState, if_neg fun h => hname h.1]

/-- The callback reports every entry of the list exactly when there is none. -/
theorem sad_state_iff (sas : List ListedSa) (newPath : CStr → CStr → Bool) (parent : Bool) :
    StateReported sas newPath parent ↔ sas = [] := by
  constructor
  · rintro ⟨nodes, o, hrun, hreported⟩
    rw [sadStateCb_registered] at hrun
    cases hrun
    by_contra hne
    obtain ⟨a, ha⟩ := List.exists_mem_of_ne_nil sas hne
    have hbytes := hreported a ha (lit "/bytes", a.reply.counters.bytes) List.mem_cons_self
    cases hbytes
  · rintro rfl
    exact ⟨[], ⟨parent, []⟩, sadStateCb_registered _ _ _, by intro a ha; cases ha⟩

/-- An entry whose SA is the one the kernel has. -/
def listedGw : ListedSa where
  node := { (default : SadEntryNode) with name := lit "gw", spi := 34503 }
  pid := 7
  stack := .zeros
  dump := saDump
  rest := []
  reply := saReply
  found := List.find?_cons_of_pos (by decide +kernel)

/-- Of that entry nothing is made. -/
theorem sad_state_gw :
    sadStateCb ⟨[listedGw.env], fun _ _ => true⟩ stateModule stateXpath [listedGw.node] false =
        some (.ok (), [listedGw.node], ⟨false, []⟩) ∧
      ¬StateReported [listedGw] (fun _ _ => true) false := by
  refine ⟨sadStateCb_registered _ _ _, ?_⟩
  rintro ⟨nodes, o, hrun, hreported⟩
  rw [sadStateCb_registered] at hrun
  cases hrun
  have hbytes := hreported listedGw List.mem_cons_self (lit "/bytes", saReply.counters.bytes) List.mem_cons_self
  cases hbytes

end CfgIpsec.Proof
