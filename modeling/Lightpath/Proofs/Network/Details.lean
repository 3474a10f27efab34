import Lightpath.Network.Detail
import Mathlib.Algebra.Group.Basic
import Mathlib.Data.List.Perm.Basic

/-!
# Details — the normal form of chains, mirrored and exported

Every chain that is stored was closed when it was set, so it is in normal form (`IsNormal`), and closing
its real elements gives it again (`IsNormal.closed_real`). Hence the exported records of link details
describe the same details (`LinkDetails.ofDocument_toEntries`). A record of both directions sets two
chains whose real elements mirror each other (`LinkDetails.Mirrors`); they stay as they are until one of
the two links is set again.
-/

namespace Lightpath

namespace SectionElement

/-! ## Real elements and the normal form -/

/-- A chain ends with a pre-amplifier fiber exactly if its last real element is an amplifier, and has no
other one. -/
structure IsNormal (chain : List SectionElement) : Prop where
  mem_iff : .preAmpFiber ∈ chain ↔ ∃ e, (real chain).getLast? = some e ∧ e.isAmp = true
  once : .preAmpFiber ∈ chain → chain = real chain ++ [.preAmpFiber]

theorem isPreAmpFiber_iff {e : SectionElement} : e.isPreAmpFiber = true ↔ e = .preAmpFiber := by
  cases e <;> simp [isPreAmpFiber]

theorem preAmpFiber_notMem_real (elements : List SectionElement) :
    .preAmpFiber ∉ real elements := by
  simp [real, isPreAmpFiber]

/-- Only pre-amplifier fibers are left out. -/
theorem real_of_notMem {elements : List SectionElement} (h : .preAmpFiber ∉ elements) :
    real elements = elements := by
  refine List.filter_eq_self.2 fun e he => ?_
  rw [Bool.not_eq_true', Bool.eq_false_iff]
  intro hpre
  exact h (isPreAmpFiber_iff.1 hpre ▸ he)

@[simp]
theorem real_real (elements : List SectionElement) : real (real elements) = real elements :=
  real_of_notMem (preAmpFiber_notMem_real elements)

theorem real_reverse (elements : List SectionElement) :
    real elements.reverse = (real elements).reverse :=
  List.filter_reverse

@[simp]
theorem real_closed (elements : List SectionElement) : real (closed elements) = real elements := by
  unfold closed
  split
  next =>
    have hlast : real [.preAmpFiber] = [] := rfl
    rw [real, List.filter_append, ← real, ← real, real_real, hlast, List.append_nil]
  next => exact real_real elements

/-- Closing gives the normal form. -/
theorem isNormal_closed (elements : List SectionElement) : IsNormal (closed elements) := by
  have hreal := real_closed elements
  unfold closed at hreal ⊢
  split at hreal
  next hamp =>
    rw [if_pos hamp]
    refine ⟨?_, fun _ => by rw [hreal]⟩
    rw [hreal]
    exact iff_of_true (by simp) ((Option.any_eq_true _ _).1 hamp)
  next hamp =>
    have hnone := preAmpFiber_notMem_real elements
    rw [if_neg hamp]
    refine ⟨?_, fun hmem => absurd hmem hnone⟩
    rw [hreal]
    exact iff_of_false hnone fun hlast => hamp ((Option.any_eq_true _ _).2 hlast)

/-- A chain in normal form is its own real elements, closed. -/
theorem IsNormal.closed_real {chain : List SectionElement} (h : IsNormal chain) :
    closed (real chain) = chain := by
  unfold closed
  rw [real_real]
  split
  next hamp => exact (h.once (h.mem_iff.2 ((Option.any_eq_true _ _).1 hamp))).symm
  next hamp => exact real_of_notMem fun hmem => hamp ((Option.any_eq_true _ _).2 (h.mem_iff.1 hmem))

/-! ## Lengths in exact arithmetic -/

/-- The length of an element, for a reading of the lengths of spans as numbers of any kind. -/
def lengthBy {α : Type} (zero : α) (read : Float → α) : SectionElement → α
  | .span _ _ length => read length
  | _ => zero

/-- The length of a chain, summed from its first element on. -/
def totalBy {α : Type} [Add α] (zero : α) (read : Float → α) (elements : List SectionElement) : α :=
  elements.foldl (fun sum e => sum + e.lengthBy zero read) zero

/-- The length in km is the sum of rounded lengths, rounded again after every element. -/
theorem totalKm_eq_totalBy (elements : List SectionElement) :
    totalKm elements = totalBy 0.0 (fun metres => metres / 1000.0) elements := by
  have hlength : lengthKm = lengthBy 0.0 fun metres => metres / 1000.0 := by
    funext e
    cases e <;> rfl
  rw [totalKm, totalBy, hlength]

section Exact

variable {α : Type} [AddCommMonoid α] (read : Float → α)

/-- In exact arithmetic the order of the elements does not matter. -/
theorem totalBy_reverse (elements : List SectionElement) :
    totalBy 0 read elements.reverse = totalBy 0 read elements := by
  have hcomm : RightCommutative fun (sum : α) (e : SectionElement) => sum + e.lengthBy 0 read :=
    ⟨fun sum e e' => add_right_comm sum _ _⟩
  exact (List.reverse_perm elements).foldl_eq 0

/-- In exact arithmetic pre-amplifier fibers do not matter. -/
theorem totalBy_real (elements : List SectionElement) :
    totalBy 0 read (real elements) = totalBy 0 read elements := by
  suffices hall : ∀ start : α, (real elements).foldl (fun sum e => sum + e.lengthBy 0 read) start =
      elements.foldl (fun sum e => sum + e.lengthBy 0 read) start from hall 0
  induction elements with
  | nil => exact fun _ => rfl
  | cons e rest ih =>
    intro start
    cases e with
    | preAmpFiber =>
      rw [List.foldl_cons, show start + lengthBy 0 read .preAmpFiber = start from add_zero start]
      exact ih start
    | amp type gain => exact ih (start + 0)
    | span type loss length => exact ih (start + read length)

end Exact

end SectionElement

/-! ## Link details and their changes -/

namespace LinkDetails

open SectionElement

variable {d : LinkDetails}

/-- A change of link details. -/
inductive Change where
  /-- They are read from a document, whatever they were. -/
  | document (n : NetworkDocument)
  /-- The elements of a link are set. -/
  | set (ends : Ends) (elements : List SectionElement)

/-- The link details after a change. -/
def Change.run (d : LinkDetails) : Change → LinkDetails
  | .document n => ofDocument n
  | .set ends elements => d.set ends elements

/-- The link details after a list of changes. -/
def after (d : LinkDetails) (changes : List Change) : LinkDetails := changes.foldl Change.run d

theorem find?_set (d : LinkDetails) (ends ends' : Ends) (elements : List SectionElement) :
    (d.set ends elements).chains.find? ends' =
      if ends' = ends then some (closed elements) else d.chains.find? ends' :=
  SortedMap.find?_insert d.chains ends ends' (closed elements)

/-- Setting a link sets its chain. -/
theorem elements_set_self (d : LinkDetails) (ends : Ends) (elements : List SectionElement) :
    (d.set ends elements).elements ends = closed elements := by
  rw [LinkDetails.elements, find?_set, if_pos rfl, Option.getD_some]

/-- Setting a link leaves the chains of other links. -/
theorem elements_set_of_ne {ends ends' : Ends} (h : ends' ≠ ends) (d : LinkDetails)
    (elements : List SectionElement) : (d.set ends elements).elements ends' = d.elements ends' := by
  rw [LinkDetails.elements, LinkDetails.elements, find?_set, if_neg h]

/-! ## Normal forms over a run -/

/-- Every stored chain is in normal form. -/
def AllNormal (d : LinkDetails) : Prop :=
  ∀ ends chain, d.chains.find? ends = some chain → IsNormal chain

theorem allNormal_empty : ({} : LinkDetails).AllNormal := fun _ _ h => nomatch h

theorem AllNormal.set (h : d.AllNormal) (ends : Ends) (elements : List SectionElement) :
    (d.set ends elements).AllNormal := by
  intro ends' chain hfind
  rw [find?_set] at hfind
  split at hfind
  next =>
    cases hfind
    exact isNormal_closed elements
  next => exact h ends' chain hfind

theorem AllNormal.load (h : d.AllNormal) (e : DetailEntry) : (d.load e).AllNormal := by
  unfold LinkDetails.load
  simp only
  split
  next => exact (h.set _ _).set _ _
  next => exact h.set _ _

theorem AllNormal.foldl_load (h : d.AllNormal) (es : List DetailEntry) :
    (es.foldl LinkDetails.load d).AllNormal := by
  induction es generalizing d with
  | nil => exact h
  | cons e rest ih => exact ih (h.load e)

/-- Every change keeps the chains in normal form. -/
theorem AllNormal.run (h : d.AllNormal) (c : Change) : (c.run d).AllNormal := by
  cases c with
  | document n => exact allNormal_empty.foldl_load n.details
  | set ends elements => exact h.set ends elements

theorem AllNormal.after (h : d.AllNormal) (changes : List Change) : (d.after changes).AllNormal := by
  induction changes generalizing d with
  | nil => exact h
  | cons c rest ih => exact ih (h.run c)

/-! ## Export -/

/-- Records of chains in normal form are stored as they are. -/
theorem foldl_load_records (d : LinkDetails) {chains : List (Ends × List SectionElement)}
    (h : ∀ e ∈ chains, IsNormal e.2) :
    chains.foldl (fun d e => d.load ⟨e.1, e.2, false⟩) d =
      ⟨chains.foldl (fun m e => m.insert e.1 e.2) d.chains⟩ := by
  induction chains generalizing d with
  | nil => rfl
  | cons e rest ih =>
    have hload : d.load ⟨e.1, e.2, false⟩ = ⟨d.chains.insert e.1 e.2⟩ := by
      show (⟨d.chains.insert e.1 (closed (real e.2))⟩ : LinkDetails) = _
      rw [(h e List.mem_cons_self).closed_real]
    rw [List.foldl_cons, hload, ih _ fun e' he' => h e' (List.mem_cons_of_mem e he')]
    rfl

/-- The exported records describe the same details. -/
theorem AllNormal.ofDocument_toEntries (h : d.AllNormal) {n : NetworkDocument}
    (hn : n.details = d.toEntries) : ofDocument n = d := by
  have hentries : ∀ e ∈ d.chains.entries, IsNormal e.2 := fun e he =>
    h e.1 e.2 (SortedMap.find?_eq_some_iff.2 he)
  rw [ofDocument, hn, toEntries, List.foldl_map, foldl_load_records {} hentries]
  exact congrArg LinkDetails.mk d.chains.ofList_entries

/-! ## Both directions of a link -/

/-- A record says something about a link. -/
def Describes (e : DetailEntry) (ends : Ends) : Prop :=
  e.ends = ends ∨ e.bidirectional = true ∧ e.ends.reversed = ends

/-- A change can replace the chain of a link. -/
def Change.Overrides : Change → Ends → Prop
  | .document _, _ => True
  | .set ends' _, ends => ends' = ends

/-- The record is in the last document that was read, and nothing after it replaces the chain of one of
its two directions. -/
def StandsIn (e : DetailEntry) (changes : List Change) : Prop :=
  ∃ past n sets before more, changes = past ++ .document n :: sets ∧
    n.details = before ++ e :: more ∧
    ∀ ends ∈ [e.ends, e.ends.reversed],
      (∀ e' ∈ more, ¬ Describes e' ends) ∧ ∀ c ∈ sets, ¬ c.Overrides ends

/-- The chains of a link and of its opposite have the given real elements, in this order and in the
reverse one. -/
structure Mirrors (d : LinkDetails) (ends : Ends) (elements : List SectionElement) : Prop where
  forth : real (d.elements ends) = real elements
  back : real (d.elements ends.reversed) = (real elements).reverse

theorem elements_load_of_not {e : DetailEntry} {ends : Ends} (h : ¬ Describes e ends)
    (d : LinkDetails) : (d.load e).elements ends = d.elements ends := by
  have hne : ends ≠ e.ends := fun heq => h (.inl heq.symm)
  unfold LinkDetails.load
  simp only
  split
  next hboth =>
    have hne' : ends ≠ e.ends.reversed := fun heq => h (.inr ⟨hboth, heq.symm⟩)
    rw [elements_set_of_ne hne, elements_set_of_ne hne']
  next => exact elements_set_of_ne hne d _

theorem elements_foldl_load_of_not {es : List DetailEntry} {ends : Ends}
    (h : ∀ e ∈ es, ¬ Describes e ends) (d : LinkDetails) :
    (es.foldl LinkDetails.load d).elements ends = d.elements ends := by
  induction es generalizing d with
  | nil => rfl
  | cons e rest ih =>
    rw [List.foldl_cons, ih (fun e' he' => h e' (List.mem_cons_of_mem e he'))]
    exact elements_load_of_not (h e List.mem_cons_self) d

theorem elements_after_of_not {changes : List Change} {ends : Ends}
    (h : ∀ c ∈ changes, ¬ c.Overrides ends) (d : LinkDetails) :
    (d.after changes).elements ends = d.elements ends := by
  induction changes generalizing d with
  | nil => rfl
  | cons c rest ih =>
    refine (ih (fun c' hc' => h c' (List.mem_cons_of_mem c hc')) (c.run d)).trans ?_
    have hc := h c List.mem_cons_self
    cases c with
    | document n => exact absurd trivial hc
    | set ends' elements => exact elements_set_of_ne (Ne.symm hc) d elements

/-- A record of both directions of a link between two ports sets mirrored chains. -/
theorem mirrors_load (d : LinkDetails) {e : DetailEntry} (hboth : e.bidirectional = true)
    (hne : e.ends.src ≠ e.ends.dst) : (d.load e).Mirrors e.ends e.elements := by
  have hreversed : e.ends.reversed ≠ e.ends := fun heq => hne (congrArg Ends.dst heq)
  unfold LinkDetails.load
  simp only [hboth, if_true]
  constructor
  case forth => rw [elements_set_self, real_closed, real_real]
  case back =>
    rw [elements_set_of_ne hreversed, elements_set_self, real_closed, real_reverse, real_real]

/-- A record that stands gives both directions mirrored chains. -/
theorem mirrors_of_standsIn {e : DetailEntry} {changes : List Change} (h : StandsIn e changes)
    (hboth : e.bidirectional = true) (hne : e.ends.src ≠ e.ends.dst) (d : LinkDetails) :
    (d.after changes).Mirrors e.ends e.elements := by
  obtain ⟨past, n, sets, before, more, rfl, hdetails, hrest⟩ := h
  have hchains : ∀ ends ∈ [e.ends, e.ends.reversed],
      (d.after (past ++ .document n :: sets)).elements ends =
        ((before.foldl LinkDetails.load {}).load e).elements ends := by
    intro ends hends
    obtain ⟨hmore, hsets⟩ := hrest ends hends
    rw [LinkDetails.after, List.foldl_append, List.foldl_cons]
    refine (elements_after_of_not hsets _).trans ?_
    rw [Change.run, ofDocument, hdetails, List.foldl_append, List.foldl_cons]
    exact elements_foldl_load_of_not hmore _
  have hmirrors := mirrors_load (before.foldl LinkDetails.load {}) hboth hne
  constructor
  case forth => exact hchains e.ends (by simp) ▸ hmirrors.forth
  case back => exact hchains e.ends.reversed (by simp) ▸ hmirrors.back

/-- In exact arithmetic mirrored chains are equally long. -/
theorem Mirrors.totalBy_eq {ends : Ends} {elements : List SectionElement}
    (h : d.Mirrors ends elements) {α : Type} [AddCommMonoid α] (read : Float → α) :
    totalBy 0 read (d.elements ends.reversed) = totalBy 0 read (d.elements ends) := by
  rw [← totalBy_real, h.back, totalBy_reverse, ← h.forth, totalBy_real]

/-- After every list of changes the chains are in normal form, and their exported records describe the
same details. If a record of both directions of a link between two different ports stands, then its two
chains mirror each other, and in exact arithmetic the sum that gives their length is the same. -/
theorem details_after (changes : List Change) {d : LinkDetails}
    (hd : ({} : LinkDetails).after changes = d) :
    d.AllNormal ∧ (∀ n : NetworkDocument, n.details = d.toEntries → ofDocument n = d) ∧
      (∀ ends, d.totalKm ends = totalBy 0.0 (fun metres => metres / 1000.0) (d.elements ends)) ∧
      ∀ e, StandsIn e changes → e.bidirectional = true → e.ends.src ≠ e.ends.dst →
        d.Mirrors e.ends e.elements ∧
          ∀ (α : Type) [AddCommMonoid α] (read : Float → α),
            totalBy 0 read (d.elements e.ends.reversed) = totalBy 0 read (d.elements e.ends) := by
  subst hd
  have hnormal := allNormal_empty.after changes
  refine ⟨hnormal, fun n hn => hnormal.ofDocument_toEntries hn,
    fun ends => totalKm_eq_totalBy _, ?_⟩
  intro e hstands hboth hne
  have hmirrors := mirrors_of_standsIn hstands hboth hne {}
  exact ⟨hmirrors, fun α _ read => hmirrors.totalBy_eq read⟩

/-- A record of both directions, with a pre-amplifier fiber where none belongs. -/
def sampleRecord : DetailEntry :=
  ⟨⟨⟨"A", 1⟩, ⟨"B", 1⟩⟩, [.preAmpFiber, .span "smf" 10.0 40000.0, .amp "LowGainAmp" 10.0], true⟩

/-- A document with the record is read, and another link is set. -/
def sampleChanges : List Change :=
  [.document ⟨[], [], [sampleRecord], none⟩, .set ⟨⟨"B", 1⟩, ⟨"C", 1⟩⟩ [.preAmpFiber]]

/-- The chain that ends with the amplifier is closed, its mirror is not. -/
theorem details_after_sample : ∃ d, ({} : LinkDetails).after sampleChanges = d ∧ d.AllNormal ∧
    StandsIn sampleRecord sampleChanges ∧ d.Mirrors sampleRecord.ends sampleRecord.elements ∧
    (d.elements sampleRecord.ends).map isPreAmpFiber = [false, false, true] ∧
    (d.elements sampleRecord.ends.reversed).map isPreAmpFiber = [false, false] := by
  have hstands : StandsIn sampleRecord sampleChanges := by
    refine ⟨[], _, _, [], [], rfl, rfl, fun ends hends => ⟨by simp, ?_⟩⟩
    intro c hc hoverrides
    obtain rfl := List.mem_singleton.1 hc
    -- the link that is set is neither direction of the record
    cases hoverrides
    revert hends
    decide
  obtain ⟨hnormal, -, -, hmirrors⟩ := details_after sampleChanges rfl
  have hne : sampleRecord.ends.src ≠ sampleRecord.ends.dst := by decide
  exact ⟨_, rfl, hnormal, hstands, (hmirrors sampleRecord hstands rfl hne).1, rfl, rfl⟩

end LinkDetails

end Lightpath
