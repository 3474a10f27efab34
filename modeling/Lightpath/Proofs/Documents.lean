import Lightpath.Proofs.Network.Codec
import Lightpath.Proofs.Quality.Codec
import Lightpath.Settings

/-!
# Documents — what is written is what is read

The network and the configuration of the optimizer are read from documents and written to them. Each
reads back equal exactly if documents can express it, and a table keeps the order in which its
document first names its entries.
-/

namespace Lightpath

/-- Settings that documents can express. -/
@[mk_iff]
structure Settings.Writable (s : Settings) : Prop where
  k : s.k < Text.wordBound
  lowestFrequency : s.lowestFrequency.isFinite = true
  quality : s.quality.Writable

/-- Settings are restored from their document. -/
theorem Settings.restores (s : Settings) : Json.Restores (ofJson? s.toJson) s s.Writable := by
  have hjournal := Json.restores_optional (fun _ h => by cases h) Json.restores_text s.journal
  rw [ofJson?, toJson, Json.fields?_ofFields]
  · refine ((Json.restores_natural s.k).bind <| (Json.restores_float s.lowestFrequency).bind <|
      hjournal.bind <| s.quality.restores.bind (.pure s)).congr ?_
    simp [writable_iff]
  · rfl
  · decide

/-- Networks and settings read back equal from their documents exactly if documents can express
them: their connect points have a device id, their doubles are finite, and their natural numbers have
64 bits. A table is read from an object of numbers and from nothing else; its names stand in the
order of their first occurrence, each with the number that was written last. -/
theorem documents_restored :
    (∀ n : NetworkDocument, NetworkDocument.ofJson? n.toJson = some n ↔ n.Writable) ∧
    (∀ s : Settings, Settings.ofJson? s.toJson = some s ↔ s.Writable) ∧
    ∀ (j : Json) (t : ParameterTable),
      ParameterTable.ofJson? j = some t ↔
        ∃ members, j = .obj members ∧
          (∀ m ∈ members, (Json.float? m.2).isSome) ∧
          t.entries.map Prod.fst = (members.map Prod.fst).eraseDups ∧
          ∀ name, t.get? name = (Json.lastMember? name members).bind Json.float? := by
  refine ⟨fun n => n.restores.eq_some_iff, fun s => s.restores.eq_some_iff, fun j t => ?_⟩
  simp only [← ParameterTable.ofJson?_eq_some_iff]
  constructor
  · intro h
    -- nothing but an object has entries
    cases j with
    | obj members => exact ⟨members, rfl, h⟩
    | null | bool | int | float | str | void | arr => cases h
  · rintro ⟨members, rfl, h⟩
    exact h

end Lightpath
