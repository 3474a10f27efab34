import Lightpath.Proofs.Optimizer.Computed
import Mathlib.Data.List.Induction

/-!
# Pairing — the paths of a catalog come in mirrored pairs

A run takes turns: calls of the optimizer, and changes of the network from outside, after which the
topology may be any other one (`Turn`). Every calculation replaces both directions of its scope by
paths that come in mirrored pairs, so the catalog stays `Catalog.Paired` although its parts are
calculated on different topologies. Every path is one that some calculation of the run added
(`Optimizer.AddedIn`).
-/

namespace Lightpath

theorem WdmPath.isReverseOf_iff {p q : WdmPath} :
    q.isReverseOf p = true ↔ q.trip = p.trip.reversed := by
  rw [isReverseOf, Route.isReverseOf, Bool.and_eq_true, beq_iff_eq, beq_iff_eq,
    List.reverse_eq_iff, trip, trip, Trip.reversed, Trip.mk.injEq]

theorem WdmPath.trip_eq_of_same {p q : WdmPath} (h : p.same q = true) : p.trip = q.trip := by
  rw [same, Route.same, Bool.and_eq_true, beq_iff_eq, beq_iff_eq] at h
  rw [trip, trip, Route.hops, Route.hops, h.1, h.2]

namespace Catalog

/-! ## Mirrored pairs -/

/-- The paths of the catalog are different trips and come in mirrored pairs, no more than `k` for each
port pair. -/
structure Paired (k : Nat) (c : Catalog) : Prop where
  coherent : c.Coherent
  distinct : (c.toList.map WdmPath.trip).Nodup
  mirrored : ∀ p ∈ c.toList, ∃ q ∈ c.toList, q.trip = p.trip.reversed
  atMost : ∀ e, (c.toList.filter fun p => p.ends == e).length ≤ k

theorem paired_empty (k : Nat) : ({} : Catalog).Paired k where
  coherent := coherent_empty
  distinct := .nil
  mirrored := fun _ h => nomatch h
  atMost := fun _ => Nat.zero_le k

variable {c : Catalog} {k : Nat}

/-- Replacing a scope by what a calculation gives keeps the pairs. -/
theorem Paired.replace (h : c.Paired k) {t : Topology} {ingress egress : Option ConnectPoint}
    {paths : List WdmPath} (hpaths : Planner.IsOutput t k ingress egress paths) :
    (c.replace ingress egress paths).1.Paired k := by
  obtain ⟨hcoherent, hlist⟩ := h.coherent.replace ingress egress paths
  have hkept (p : WdmPath) : p ∈ c.toList.filter (fun p => !p.inScope ingress egress) ↔
      p ∈ c.toList ∧ p.inScope ingress egress = false := by
    rw [List.mem_filter, Bool.not_eq_true']
  constructor
  case coherent => exact hcoherent
  case distinct =>
    rw [hlist, List.map_append, List.nodup_append]
    refine ⟨h.distinct.sublist (List.filter_sublist.map _), hpaths.distinct, ?_⟩
    intro x hx y hy hxy
    obtain ⟨p, hp, rfl⟩ := List.mem_map.1 hx
    obtain ⟨q, hq, rfl⟩ := List.mem_map.1 hy
    -- what is kept lies outside the scope, and what is added inside
    have hout := ((hkept p).1 hp).2
    rw [WdmPath.inScope_congr (congrArg Trip.ends hxy), hpaths.inside q hq] at hout
    exact nomatch hout
  case mirrored =>
    intro p hp
    rw [hlist] at hp ⊢
    rcases List.mem_append.1 hp with hp | hp
    · obtain ⟨hp, hout⟩ := (hkept p).1 hp
      obtain ⟨q, hq, hqp⟩ := h.mirrored p hp
      have hscope := WdmPath.inScope_of_reversed (congrArg Trip.ends hqp) ingress egress
      exact ⟨q, List.mem_append_left _ ((hkept q).2 ⟨hq, hscope.trans hout⟩), hqp⟩
    · obtain ⟨q, hq, hqp⟩ := hpaths.mirrored p hp
      exact ⟨q, List.mem_append_right _ hq, hqp⟩
  case atMost =>
    intro e
    rw [hlist, List.filter_append, List.length_append]
    -- the paths of a port pair are either all kept or all calculated
    by_cases hnew : paths.filter (fun p => p.ends == e) = []
    · rw [hnew, List.length_nil, Nat.add_zero]
      exact le_trans (List.filter_sublist.filter _).length_le (h.atMost e)
    · obtain ⟨q, hq⟩ := List.exists_mem_of_ne_nil _ hnew
      obtain ⟨hq, hqe⟩ := List.mem_filter.1 hq
      have hold : (c.toList.filter fun p => !p.inScope ingress egress).filter
          (fun p => p.ends == e) = [] := by
        rw [List.filter_eq_nil_iff]
        intro p hp hpe
        have hout := ((hkept p).1 hp).2
        rw [WdmPath.inScope_congr ((beq_iff_eq.1 hpe).trans (beq_iff_eq.1 hqe).symm),
          hpaths.inside q hq] at hout
        exact nomatch hout
      rw [hold, List.length_nil, Nat.zero_add]
      exact hpaths.atMost e

theorem Paired.eq_of_trip_eq (h : c.Paired k) {p q : WdmPath} (hp : p ∈ c.toList)
    (hq : q ∈ c.toList) (htrip : p.trip = q.trip) : p = q :=
  List.inj_on_of_nodup_map h.distinct hp hq htrip

/-- The look-up of the reverse finds the only path over the mirrored trip. -/
theorem Paired.getReverse?_eq (h : c.Paired k) {p q : WdmPath} (hq : q ∈ c.toList)
    (hqp : q.trip = p.trip.reversed) : c.getReverse? p = some q := by
  rw [h.coherent.getReverse?_eq]
  cases hfind : c.toList.find? fun q => q.isReverseOf p with
  | none =>
    have hnone := List.find?_eq_none.1 hfind q hq
    exact absurd (WdmPath.isReverseOf_iff.2 hqp) hnone
  | some x =>
    have hreverse := List.find?_some hfind
    have hx : x.trip = p.trip.reversed := WdmPath.isReverseOf_iff.1 hreverse
    rw [h.eq_of_trip_eq (List.mem_of_find?_eq_some hfind) hq (hx.trans hqp.symm)]

/-- Every port pair has at most `k` paths, no two paths are equal, and looking up the reverse of a
path finds one with swapped ports and mirrored hops, whose reverse is the path itself. -/
structure IsSound (k : Nat) (c : Catalog) : Prop where
  atMost : ∀ i e, (c.getPaths (some i) (some e)).length ≤ k
  distinct : c.toList.Pairwise fun p q => p.same q = false
  reverse : ∀ p ∈ c.toList, ∃ r ∈ c.toList, c.getReverse? p = some r ∧
    r.ends = p.ends.reversed ∧ r.route.hops = p.route.hops.reverse ∧ c.getReverse? r = some p

theorem Paired.isSound (h : c.Paired k) : c.IsSound k where
  atMost := by
    intro i e
    rw [h.coherent.getPaths_eq]
    refine le_trans (le_of_eq (congrArg List.length (List.filter_congr ?_))) (h.atMost ⟨i, e⟩)
    intro p _
    rw [Bool.eq_iff_iff, WdmPath.runs_pair_iff, beq_iff_eq]
  distinct := by
    refine (List.pairwise_map.1 h.distinct).imp ?_
    intro p q hne
    rw [Bool.eq_false_iff]
    exact fun hsame => hne (WdmPath.trip_eq_of_same hsame)
  reverse := by
    intro p hp
    obtain ⟨r, hr, hrp⟩ := h.mirrored p hp
    have hback : p.trip = r.trip.reversed := by rw [hrp, Trip.reversed_reversed]
    exact ⟨r, hr, h.getReverse?_eq hr hrp, congrArg Trip.ends hrp, congrArg Trip.hops hrp,
      h.getReverse?_eq hp hback⟩

end Catalog

/-! ## Runs -/

/-- A turn of a run: a call of the optimizer, or any change of the network from outside. -/
inductive Turn where
  | call (c : Call)
  | network (t : Topology) (d : LinkDetails)

/-- What a turn does to an optimizer. -/
def Turn.run : Turn → Optimizer → Optimizer
  | .call c, o => (c.run o).optimizer
  | .network t d, o => { o with topology := t, details := d }

namespace Optimizer

/-- The state after a list of turns. -/
def afterTurns (o : Optimizer) (turns : List Turn) : Optimizer := turns.foldl (fun o x => x.run o) o

theorem afterTurns_append_singleton (o : Optimizer) (turns : List Turn) (x : Turn) :
    o.afterTurns (turns ++ [x]) = x.run (o.afterTurns turns) :=
  List.foldl_append

theorem afterTurns_append_cons (o : Optimizer) (turns : List Turn) (x : Turn) (more : List Turn) :
    o.afterTurns (turns ++ x :: more) = (x.run (o.afterTurns turns)).afterTurns more :=
  List.foldl_append

/-- Calls are turns. -/
theorem afterTurns_map_call (start : Optimizer) (calls : List Call) :
    start.afterTurns (calls.map .call) = start.after calls :=
  List.foldl_map

/-- A calculation of the run added the path, which joins add/drop ports of the topology at that
time. -/
def AddedIn (start : Optimizer) (turns : List Turn) (p : WdmPath) : Prop :=
  ∃ before c more ingress egress paths, turns = before ++ .call c :: more ∧
    (start.afterTurns before).Computes c ingress egress paths ∧ p ∈ paths ∧
      p.JoinsAddDropPorts (start.afterTurns before).topology

theorem AddedIn.snoc {start : Optimizer} {turns : List Turn} {p : WdmPath}
    (h : AddedIn start turns p) (x : Turn) : AddedIn start (turns ++ [x]) p := by
  obtain ⟨before, c, more, ingress, egress, paths, rfl, hcomputes⟩ := h
  refine ⟨before, c, more ++ [x], ingress, egress, paths, ?_, hcomputes⟩
  rw [List.append_assoc, List.cons_append]

/-- What holds of the catalog after every turn. -/
structure Provides (start : Optimizer) (turns : List Turn) : Prop where
  settings : (start.afterTurns turns).settings = start.settings
  paired : (start.afterTurns turns).catalog.Paired start.settings.k
  added : ∀ p ∈ (start.afterTurns turns).catalog.toList, AddedIn start turns p

/-- A turn that leaves the catalog as it is keeps its properties. -/
theorem Provides.of_catalog_eq {start : Optimizer} {turns : List Turn} (h : Provides start turns)
    {x : Turn} (hcatalog : (x.run (start.afterTurns turns)).catalog = (start.afterTurns turns).catalog)
    (hsettings : (x.run (start.afterTurns turns)).settings = (start.afterTurns turns).settings) :
    Provides start (turns ++ [x]) := by
  constructor
  case settings =>
    rw [afterTurns_append_singleton, hsettings]
    exact h.settings
  case paired =>
    rw [afterTurns_append_singleton, hcatalog]
    exact h.paired
  case added =>
    rw [afterTurns_append_singleton, hcatalog]
    intro p hp
    exact (h.added p hp).snoc x

/-- Each turn keeps the properties of the catalog. -/
theorem Provides.turn {start : Optimizer} {turns : List Turn} (h : Provides start turns) (x : Turn) :
    Provides start (turns ++ [x]) := by
  cases x with
  | network t d => exact h.of_catalog_eq rfl rfl
  | call c =>
    cases hscope : c.scope? with
    | none =>
      obtain ⟨hcatalog, hsettings⟩ := run_of_scope?_eq_none hscope (start.afterTurns turns)
      exact h.of_catalog_eq hcatalog hsettings
    | some scope =>
      obtain ⟨ingress, egress⟩ := scope
      rcases calculation_cases (o := start.afterTurns turns) hscope with ⟨hsame, -⟩ | ⟨paths, hcomputes⟩
      · exact h.of_catalog_eq (congrArg catalog hsame) (congrArg Optimizer.settings hsame)
      · have houtput := hcomputes.isOutput
        have hrun : Turn.run (.call c) (start.afterTurns turns) = _ := hcomputes.state
        constructor
        case settings =>
          rw [afterTurns_append_singleton, hrun]
          exact h.settings
        case paired =>
          rw [afterTurns_append_singleton, hrun]
          rw [h.settings] at houtput
          exact h.paired.replace houtput
        case added =>
          rw [afterTurns_append_singleton, hrun]
          intro p hp
          rw [(h.paired.coherent.replace ingress egress paths).2] at hp
          rcases List.mem_append.1 hp with hp | hp
          · exact (h.added p (List.mem_filter.1 hp).1).snoc _
          · exact ⟨turns, c, [], ingress, egress, paths, rfl, hcomputes, hp, houtput.ports p hp⟩

/-- A run that starts without computed paths keeps the properties of the catalog. -/
theorem provides {start : Optimizer} (hempty : start.catalog = {}) (turns : List Turn) :
    Provides start turns := by
  induction turns using List.reverseRecOn with
  | nil =>
    constructor
    case settings => rfl
    case paired =>
      show start.catalog.Paired start.settings.k
      rw [hempty]
      exact Catalog.paired_empty _
    case added =>
      intro p hp
      change p ∈ start.catalog.toList at hp
      rw [hempty] at hp
      exact nomatch hp
  | append_singleton turns x ih => exact ih.turn x

/-- In every state that a run reaches the catalog is sound, and each of its paths was added by a
calculation of the run and joins add/drop ports of two devices at that time. -/
theorem catalog_sound (start : Optimizer) (hempty : start.catalog = {}) (turns : List Turn) :
    (start.afterTurns turns).catalog.IsSound start.settings.k ∧
      ∀ p ∈ (start.afterTurns turns).catalog.toList, AddedIn start turns p := by
  have h : Provides start turns := provides hempty turns
  exact ⟨h.paired.isSound, h.added⟩

/-- An OSNR method that gives every route the same OSNR in the mode of the sample. -/
def sampleMethod : OsnrMethod :=
  fun routes => .ok (routes.map fun _ => SortedMap.empty.insert sampleMode 30.0)

/-- The catalog is calculated as a whole, a link goes down, two scopes are calculated again, one of
them for a port that there is not, and the network comes back from outside. -/
def sampleTurns : List Turn :=
  [.call (.calculateWdmPathsBy sampleMethod none none),
    .call (.setLinkState ⟨⟨"A", 1⟩, ⟨"B", 1⟩⟩ .inactive),
    .call (.calculateWdmPathsBy sampleMethod (some ⟨"A", 2⟩) (some ⟨"B", 2⟩)),
    .call (.calculateWdmPathsBy sampleMethod (some ⟨"A", 9⟩) none),
    .network sampleStart.topology sampleStart.details,
    .call (.calculateWdmPathsBy sampleMethod (some ⟨"A", 2⟩) none)]

/-- Eight paths join the two add/drop ports of each switch. -/
theorem catalog_sound_sample : sampleStart.catalog = {} ∧
    ((sampleStart.afterTurns sampleTurns).catalog.IsSound sampleStart.settings.k ∧
      ∀ p ∈ (sampleStart.afterTurns sampleTurns).catalog.toList,
        AddedIn sampleStart sampleTurns p) ∧
    (sampleStart.afterTurns (sampleTurns.take 3)).catalog.toList.length = 6 ∧
      (sampleStart.afterTurns sampleTurns).catalog.toList.length = 8 :=
  ⟨rfl, catalog_sound sampleStart rfl sampleTurns, by decide +kernel, by decide +kernel⟩

end Optimizer

end Lightpath
