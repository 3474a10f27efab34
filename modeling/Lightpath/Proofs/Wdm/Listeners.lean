import Lightpath.Proofs.Wdm.Catalog
import Lightpath.Wdm.Listeners

/-!
# The catalog and its listeners refine a list

Whatever sequence of replacements and clearings a catalog goes through, it stands for a plain list of
paths (`ObservedCatalog.Refines`): its size and its listings are those of the list, and every change
edits the list and tells each listener once what went and what came. The listeners are those that were
added, and together they heard of every change since then and of nothing else (`ObservedCatalog.Heard`,
`refines_after`).
-/

namespace Lightpath

namespace ObservedCatalog

/-! ## Calls and their effect on a list -/

/-- A call that changes the catalog or its listeners. -/
inductive Call where
  | addListener (listener : Nat)
  | replace (ingress egress : Option ConnectPoint) (paths : List WdmPath)
  | clear

/-- The catalog after a call. -/
def Call.run (o : ObservedCatalog) : Call → ObservedCatalog
  | .addListener listener => o.addListener listener
  | .replace ingress egress paths => (o.replace ingress egress paths).1
  | .clear => o.clear.1

/-- The catalog after a sequence of calls. -/
def after (o : ObservedCatalog) (calls : List Call) : ObservedCatalog := calls.foldl Call.run o

/-- What a call does to a plain list of paths. -/
def Call.onList (l : List WdmPath) : Call → List WdmPath
  | .addListener _ => l
  | .replace ingress egress paths => (l.filter fun p => !p.inScope ingress egress) ++ paths
  | .clear => []

/-- The listener that a call adds. -/
def Call.listener? : Call → Option Nat
  | .addListener listener => some listener
  | _ => none

/-- What the listeners hear while a sequence of calls edits a plain list of paths, in order: every change is
one event, sent to each listener that was there before or has been added since then. -/
inductive Heard : List Nat → List WdmPath → List Call → List (Nat × CatalogEvent) → Prop
  | done {listeners : List Nat} {l : List WdmPath} : Heard listeners l [] []
  | added {listeners : List Nat} {l : List WdmPath} {listener : Nat} {calls : List Call}
      {log : List (Nat × CatalogEvent)} (h : Heard (listeners ++ [listener]) l calls log) :
      Heard listeners l (.addListener listener :: calls) log
  | replaced {listeners : List Nat} {l removed : List WdmPath} {ingress egress : Option ConnectPoint}
      {paths : List WdmPath} {calls : List Call} {log : List (Nat × CatalogEvent)}
      (hremoved : removed.Perm (l.filter fun p => p.inScope ingress egress))
      (h : Heard listeners ((l.filter fun p => !p.inScope ingress egress) ++ paths) calls log) :
      Heard listeners l (.replace ingress egress paths :: calls)
        (listeners.map (fun listener => (listener, .replaced paths removed)) ++ log)
  | cleared {listeners : List Nat} {l : List WdmPath} {calls : List Call}
      {log : List (Nat × CatalogEvent)} (h : Heard listeners [] calls log) :
      Heard listeners l (.clear :: calls)
        (listeners.map (fun listener => (listener, .cleared l)) ++ log)

/-! ## The refinement -/

/-- A catalog stands for a list of paths: what is read is read off the list, and a change edits the
list and tells every listener of one event, with exactly what went and what came. -/
structure Refines (o : ObservedCatalog) (l : List WdmPath) : Prop where
  size : o.catalog.size = l.length
  getPaths : ∀ ingress egress,
    o.catalog.getPaths ingress egress = l.filter fun p => p.runs ingress egress
  getReverse : ∀ p, o.catalog.getReverse? p = l.find? fun q => q.isReverseOf p
  /-- Replacing reports the given paths as added, and those within the scope, each as often as it was
  there, as removed. -/
  replaced : ∀ ingress egress paths, ∃ removed,
    removed.Perm (l.filter fun p => p.inScope ingress egress) ∧
    (o.replace ingress egress paths).2 = .replaced paths removed ∧
    (o.replace ingress egress paths).1.catalog.toList =
      (l.filter fun p => !p.inScope ingress egress) ++ paths ∧
    (o.replace ingress egress paths).1.listeners = o.listeners ∧
    (o.replace ingress egress paths).1.heard =
      o.heard ++ o.listeners.map fun listener => (listener, .replaced paths removed)
  /-- Clearing reports the whole list. -/
  cleared : o.clear.2 = .cleared l ∧ o.clear.1.catalog.toList = [] ∧
    o.clear.1.listeners = o.listeners ∧
    o.clear.1.heard = o.heard ++ o.listeners.map fun listener => (listener, .cleared l)

variable {o : ObservedCatalog}

/-- A coherent catalog stands for its listing. -/
theorem refines_toList (h : o.catalog.Coherent) : o.Refines o.catalog.toList where
  size := o.catalog.size_eq
  getPaths := h.getPaths_eq
  getReverse := h.getReverse?_eq
  replaced ingress egress paths :=
    ⟨_, h.removed_perm ingress egress paths, rfl, (h.replace ingress egress paths).2, rfl, rfl⟩
  cleared := ⟨rfl, rfl, rfl, rfl⟩

/-- A call keeps the catalog coherent and edits its listing as it edits a plain list. -/
theorem coherent_run (h : o.catalog.Coherent) (c : Call) :
    (c.run o).catalog.Coherent ∧ (c.run o).catalog.toList = c.onList o.catalog.toList := by
  cases c with
  | addListener listener => exact ⟨h, rfl⟩
  | replace ingress egress paths => exact h.replace ingress egress paths
  | clear => exact Catalog.Coherent.clear o.catalog

theorem coherent_after (h : o.catalog.Coherent) (calls : List Call) :
    (o.after calls).catalog.Coherent ∧
      (o.after calls).catalog.toList = calls.foldl Call.onList o.catalog.toList := by
  induction calls generalizing o with
  | nil => exact ⟨h, rfl⟩
  | cons c rest ih =>
    obtain ⟨hcoherent, hlist⟩ := coherent_run h c
    rw [List.foldl_cons, ← hlist]
    exact ih hcoherent

/-- The listeners are those at the start and those that the calls add. -/
theorem listeners_after (o : ObservedCatalog) (calls : List Call) :
    (o.after calls).listeners = o.listeners ++ calls.filterMap Call.listener? := by
  induction calls generalizing o with
  | nil => exact (List.append_nil _).symm
  | cons c rest ih =>
    refine (ih (c.run o)).trans ?_
    cases c with
    | addListener listener => exact List.append_assoc o.listeners [listener] _
    | replace ingress egress paths => rfl
    | clear => rfl

/-- The calls add to what was heard at the start what the listeners hear while they edit the listing. -/
theorem heard_after (h : o.catalog.Coherent) (calls : List Call) :
    ∃ log, Heard o.listeners o.catalog.toList calls log ∧ (o.after calls).heard = o.heard ++ log := by
  induction calls generalizing o with
  | nil => exact ⟨[], .done, (List.append_nil _).symm⟩
  | cons c rest ih =>
    obtain ⟨hcoherent, hlist⟩ := coherent_run h c
    obtain ⟨log, hlog, hheard⟩ := ih hcoherent
    rw [hlist] at hlog
    cases c with
    | addListener listener => exact ⟨log, .added hlog, hheard⟩
    | replace ingress egress paths =>
      refine ⟨_, .replaced (h.removed_perm ingress egress paths) hlog, ?_⟩
      exact hheard.trans (List.append_assoc _ _ _)
    | clear => exact ⟨_, .cleared hlog, hheard.trans (List.append_assoc _ _ _)⟩

/-- After any calls the catalog stands for the list that the same calls make of the empty list, its
listeners are those that the calls added, and they heard of the changes after that. -/
theorem refines_after (calls : List Call) :
    (({} : ObservedCatalog).after calls).Refines (calls.foldl Call.onList []) ∧
      (({} : ObservedCatalog).after calls).listeners = calls.filterMap Call.listener? ∧
      Heard [] [] calls (({} : ObservedCatalog).after calls).heard := by
  obtain ⟨hcoherent, hlist⟩ := coherent_after (o := {}) Catalog.coherent_empty calls
  obtain ⟨log, hlog, hheard⟩ := heard_after (o := {}) Catalog.coherent_empty calls
  refine ⟨?_, listeners_after {} calls, hheard ▸ hlog⟩
  rw [← show _ = calls.foldl Call.onList [] from hlist]
  exact refines_toList hcoherent

/-- A path between two switches over one line. -/
def samplePath : WdmPath where
  ends := ⟨⟨"A", 10⟩, ⟨"B", 10⟩⟩
  route :=
    { links := [.between ⟨"A", 1⟩ ⟨"B", 1⟩]
      weight := 80.0
      nonempty := List.cons_ne_nil _ _
      contiguous := trivial }
  osnr := ∅

/-- Two listeners, of which the second one comes between two changes. -/
def sampleCalls : List Call :=
  [.addListener 1, .replace none none [samplePath], .addListener 2, .replace (some ⟨"A", 10⟩) none [],
    .clear]

/-- The first listener hears of all three changes, the second one of the later two. -/
theorem refines_after_sample :
    (({} : ObservedCatalog).after sampleCalls).Refines [] ∧
      (({} : ObservedCatalog).after sampleCalls).listeners = [1, 2] ∧
      (({} : ObservedCatalog).after sampleCalls).heard =
        [(1, .replaced [samplePath] []), (1, .replaced [] [samplePath]),
          (2, .replaced [] [samplePath]), (1, .cleared []), (2, .cleared [])] := by
  obtain ⟨hrefines, hlisteners, hheard⟩ := refines_after sampleCalls
  refine ⟨hrefines, hlisteners, ?_⟩
  -- the calls leave only one way to hear of them
  generalize (({} : ObservedCatalog).after sampleCalls).heard = log at hheard ⊢
  obtain - | hheard := hheard
  obtain - | - | ⟨hall, hheard⟩ := hheard
  obtain - | hheard := hheard
  obtain - | - | ⟨hscoped, hheard⟩ := hheard
  obtain - | - | - | hheard := hheard
  obtain - | - | - | - := hheard
  rw [List.perm_nil.1 hall, List.perm_singleton.1 hscoped]
  rfl

end ObservedCatalog

end Lightpath
