import Lightpath.Network.Document
import Lightpath.Proofs.Json.Codec
import Lightpath.Proofs.Text.Numeral
import Mathlib.Tactic.MkIffOfInductiveProp

/-!
# Network documents read back as they were written

For every part of a network document there is the condition under which documents can express it:
the connect points have a device id, the doubles are finite, and port numbers have 64 bits. Under
this condition and no other the part reads back equal from its written form, whichever of its fields
are empty and left out.
-/

namespace Lightpath

open Json (Restores)

/-! ## Fields that may be left out -/

theorem restores_whenSet (b : Bool) :
    Restores (Json.defaulted? false Json.bool? (whenSet b)) b True := by
  cases b <;> exact .pure _

theorem restores_unlessEmpty {α : Type} {item : Json → Option α} {encode : α → Json} {p : α → Prop}
    (h : ∀ x, Restores (item (encode x)) x (p x)) (l : List α) :
    Restores (Json.defaulted? [] (Json.list? item) (unlessEmpty (l.map encode))) l
      (∀ x ∈ l, p x) := by
  cases l with
  | nil => exact (Restores.pure []).congr (by simp)
  | cons x rest => exact Json.restores_list h (x :: rest)

/-! ## Devices -/

/-- Ports that documents can express. -/
def PortEntry.Writable (p : PortEntry) : Prop := p.number < Text.wordBound

theorem PortEntry.restores (p : PortEntry) : Restores (ofJson? p.toJson) p p.Writable := by
  have hname := Json.restores_optional (fun _ h => by cases h) Json.restores_text p.name
  rw [ofJson?, toJson, Json.fields?_ofFields]
  · refine ((Json.restores_natural p.number).bind <| hname.bind <|
      (Json.restores_oneOf PortKind.named?_name p.kind).bind <|
      (Json.restores_oneOf PortRole.named?_name p.role).bind <|
      (Json.restores_bool p.enabled).bind (.pure p)).congr ?_
    simp [Writable]
  · rfl
  · decide

theorem CapabilityEntry.restores (c : CapabilityEntry) : Restores (ofJson? c.toJson) c True := by
  have hrates := Json.restores_list (Json.restores_oneOf Rate.named?_name) c.rates
  have hmodulations := Json.restores_list (Json.restores_oneOf Modulation.named?_name) c.modulations
  rw [ofJson?, toJson, Json.fields?_obj]
  · exact (hrates.bind <| hmodulations.bind (.pure c)).congr (by simp)
  · rfl
  · decide

/-- Devices that documents can express. -/
def DeviceEntry.Writable (d : DeviceEntry) : Prop := ∀ p ∈ d.ports, p.Writable

theorem DeviceEntry.restores (d : DeviceEntry) : Restores (ofJson? d.toJson) d d.Writable := by
  have hports := Json.restores_list PortEntry.restores d.ports
  have hcapability :=
    Json.restores_optional (fun _ h => by cases h) CapabilityEntry.restores d.capability
  rw [ofJson?, toJson, Json.fields?_ofFields]
  · refine ((Json.restores_text d.id).bind <|
      (Json.restores_oneOf DeviceKind.named?_name d.kind).bind <|
      (Json.restores_text d.manufacturer).bind <| hports.bind <| hcapability.bind (.pure d)).congr ?_
    simp [Writable]
  · rfl
  · decide

/-! ## Links -/

theorem ConnectPoint.restores (cp : ConnectPoint) : Restores (ofJson? cp.toJson) cp cp.Writable :=
  fun _ => ConnectPoint.read?_display_iff

theorem restores_annotations (m : SortedMap String String) :
    Restores (Json.defaulted? ∅ annotationsOfJson? (if m.isEmpty then none
      else some (.obj (m.entries.map fun a => (a.1, .str a.2))))) m True := by
  split
  next h =>
    have hempty : m = ∅ := SortedMap.ext (List.isEmpty_iff.1 h)
    subst hempty
    exact .pure _
  next =>
    exact (Json.restores_sortedMap Json.some_id Json.restores_text m).congr (by simp)

/-- Links that documents can express. -/
def LinkEntry.Writable (e : LinkEntry) : Prop := e.link.src.Writable ∧ e.link.dst.Writable

theorem LinkEntry.restores (e : LinkEntry) : Restores (ofJson? e.toJson) e e.Writable := by
  rw [ofJson?, toJson, Json.fields?_ofFields]
  · refine (e.link.src.restores.bind <| e.link.dst.restores.bind <|
      (Json.restores_oneOf LinkKind.named?_name e.link.kind).bind <|
      (Json.restores_oneOf LinkState.named?_name e.link.state).bind <|
      (restores_annotations e.link.annotations).bind <|
      (restores_whenSet e.bidirectional).bind (.pure e)).congr ?_
    simp [Writable]
  · rfl
  · decide

/-! ## The elements of links -/

/-- Elements that documents can express. -/
def SectionElement.Writable : SectionElement → Prop
  | .amp _ gain => gain.isFinite = true
  | .span _ loss length => loss.isFinite = true ∧ length.isFinite = true
  | .preAmpFiber => True

/-- The record of an element holds no other record and no value that cannot be read. -/
theorem SectionElement.fits_toJson (depth : Nat) (e : SectionElement) :
    e.toJson.fits (depth + 1) = true := by
  have hfloat (x : Float) : (Json.ofFloat x).fits depth = true := by
    by_cases h : x.isFinite = true <;> simp [Json.ofFloat, h, Json.fits]
  cases e <;> simp [toJson, Json.fits, Json.fitsMembers, hfloat]

/-- The fields beside the tag of a record decide the element. -/
theorem SectionElement.ofJson?_obj {above : Nat} {tag : String} {members : List (String × Json)}
    (hfits : (Json.obj (("type", .str tag) :: members)).fits (Json.depthLimit - above) = true)
    (hnew : "type" ∉ members.map Prod.fst) :
    ofJson? above (.obj (("type", .str tag) :: members)) = ofTagged? tag (.obj members) := by
  have hname : ∀ m ∈ members, m.1 ≠ "type" := fun m hm he =>
    hnew (List.mem_map.2 ⟨m, hm, he⟩)
  have hnone : members.filter (fun m => m.1 == "type") = [] := by
    simpa using hname
  have hall : members.filter (fun m => m.1 != "type") = members := by
    simpa using hname
  simp [ofJson?, hfits, Json.soleMember?, hnone, hall]

theorem SectionElement.restores (e : SectionElement) :
    Restores (ofJson? 4 e.toJson) e e.Writable := by
  -- an element needs one level of depth, and the four around it leave more than that
  have hfits : e.toJson.fits (Json.depthLimit - 4) = true := e.fits_toJson 122
  cases e with
  | amp type gain =>
    rw [toJson] at hfits ⊢
    rw [ofJson?_obj hfits (by simp)]
    unfold ofTagged?
    rw [if_pos (beq_self_eq_true _), Json.fields?_obj]
    · refine ((Json.restores_text type).bind <|
        (Json.restores_float gain).bind (.pure (amp type gain))).congr ?_
      simp [Writable]
    · rfl
    · decide
  | span type loss length =>
    rw [toJson] at hfits ⊢
    rw [ofJson?_obj hfits (by simp)]
    unfold ofTagged?
    rw [if_neg (by decide), if_pos (beq_self_eq_true _), Json.fields?_obj]
    · refine ((Json.restores_text type).bind <| (Json.restores_float loss).bind <|
        (Json.restores_float length).bind (.pure (span type loss length))).congr ?_
      simp [Writable]
    · rfl
    · decide
  | preAmpFiber =>
    rw [toJson] at hfits ⊢
    rw [ofJson?_obj hfits (by simp)]
    exact .pure preAmpFiber

/-- Link details that documents can express. -/
def DetailEntry.Writable (d : DetailEntry) : Prop :=
  d.ends.src.Writable ∧ d.ends.dst.Writable ∧ ∀ e ∈ d.elements, e.Writable

theorem DetailEntry.restores (d : DetailEntry) : Restores (ofJson? d.toJson) d d.Writable := by
  have helements := Json.restores_list SectionElement.restores d.elements
  rw [ofJson?, toJson, Json.fields?_ofFields]
  · refine (d.ends.src.restores.bind <| d.ends.dst.restores.bind <| helements.bind <|
      (restores_whenSet d.bidirectional).bind (.pure d)).congr ?_
    simp [Writable]
  · rfl
  · decide

/-! ## Networks -/

/-- Spectra that documents can express. -/
def Spectrum.Writable (s : Spectrum) : Prop := s.lowest.isFinite = true ∧ s.highest.isFinite = true

theorem Spectrum.restores (s : Spectrum) : Restores (ofJson? s.toJson) s s.Writable := by
  rw [ofJson?, toJson, Json.fields?_obj]
  · refine ((Json.restores_float s.lowest).bind <|
      (Json.restores_float s.highest).bind (.pure s)).congr ?_
    simp [Writable]
  · rfl
  · decide

/-- Networks that documents can express. -/
@[mk_iff]
structure NetworkDocument.Writable (n : NetworkDocument) : Prop where
  devices : ∀ d ∈ n.devices, d.Writable
  links : ∀ e ∈ n.links, e.Writable
  details : ∀ d ∈ n.details, d.Writable
  spectrum : ∀ s ∈ n.spectrum, s.Writable

/-- A network is restored from its document. -/
theorem NetworkDocument.restores (n : NetworkDocument) :
    Restores (ofJson? n.toJson) n n.Writable := by
  have hdevices := Json.restores_list DeviceEntry.restores n.devices
  have hlinks := Json.restores_list LinkEntry.restores n.links
  have hdetails := restores_unlessEmpty DetailEntry.restores n.details
  have hspectrum := Json.restores_optional (fun _ h => by cases h) Spectrum.restores n.spectrum
  rw [ofJson?, toJson, Json.fields?_ofFields]
  · refine (hdevices.bind <| hlinks.bind <| hdetails.bind <| hspectrum.bind (.pure n)).congr ?_
    rw [writable_iff, and_true]
  · rfl
  · decide

end Lightpath
