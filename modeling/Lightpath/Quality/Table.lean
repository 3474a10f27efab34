import Lightpath.Json.Decode

/-!
# Parameter tables — named coefficients in the order of their declaration

A `ParameterTable` gives a coefficient per fiber or amplifier type. An unknown type has the
coefficient of the first entry, so the order of entries counts. No name occurs twice, which is part
of the type.
-/

namespace Lightpath

/-- Coefficients by name, in the order in which the names first occurred. -/
structure ParameterTable where
  entries : List (String × Float)
  nodup : (entries.map (·.1)).Nodup

namespace ParameterTable

/-- The table without entries. -/
def empty : ParameterTable := ⟨[], .nil⟩

instance : Inhabited ParameterTable := ⟨empty⟩

/-- Replaces the value of a name where it stands, or appends the entry. -/
def putEntry (name : String) (value : Float) : List (String × Float) → List (String × Float)
  | [] => [(name, value)]
  | (n, v) :: rest =>
    if n = name then (n, value) :: rest else (n, v) :: putEntry name value rest

theorem map_fst_putEntry (name : String) (value : Float) (l : List (String × Float)) :
    (putEntry name value l).map (·.1) =
      if name ∈ l.map (·.1) then l.map (·.1) else l.map (·.1) ++ [name] := by
  induction l with
  | nil => simp [putEntry]
  | cons e rest ih =>
    obtain ⟨n, v⟩ := e
    by_cases h : n = name
    · simp [putEntry, h]
    · have h' : name ≠ n := fun he => h he.symm
      rw [putEntry, if_neg h, List.map_cons, ih]
      by_cases hm : name ∈ rest.map (·.1)
      · simp only [if_pos hm, List.map_cons, List.mem_cons, h', false_or]
      · simp only [if_neg hm, List.map_cons, List.mem_cons, h', false_or, List.cons_append]

theorem nodup_putEntry (name : String) (value : Float) {l : List (String × Float)}
    (h : (l.map (·.1)).Nodup) : ((putEntry name value l).map (·.1)).Nodup := by
  rw [map_fst_putEntry]
  split
  · exact h
  next hn =>
    refine List.nodup_append.2 ⟨h, by simp, fun a ha b hb he => hn ?_⟩
    rw [List.mem_singleton] at hb
    exact hb ▸ he ▸ ha

/-- The table with a value for a name. An existing entry keeps its place. -/
def insert (t : ParameterTable) (name : String) (value : Float) : ParameterTable :=
  ⟨putEntry name value t.entries, nodup_putEntry name value t.nodup⟩

/-- The table of a list of entries; the last value of a name counts, at the place of the first. -/
def ofList (l : List (String × Float)) : ParameterTable :=
  l.foldl (fun t e => t.insert e.1 e.2) empty

/-- The value of a name. -/
def get? (t : ParameterTable) (name : String) : Option Float :=
  (t.entries.find? (fun e => e.1 == name)).map (·.2)

/-- The value of the first entry. -/
def first? (t : ParameterTable) : Option Float := t.entries.head?.map (·.2)

/-- The value of a name, or of the first entry if the name is not in the table. -/
def getOrFirst? (t : ParameterTable) (name : String) : Option Float :=
  match t.get? name with
  | some v => some v
  | none => t.first?

/-- Whether the table has no entry. -/
def isEmpty (t : ParameterTable) : Bool := t.entries.isEmpty

/-- The table of a document object. -/
def ofJson? (j : Json) : Option ParameterTable := (j.entries? some Json.float?).map ofList

/-- The document object of a table. -/
def toJson (t : ParameterTable) : Json := .obj (t.entries.map (fun e => (e.1, Json.ofFloat e.2)))

end ParameterTable

end Lightpath
