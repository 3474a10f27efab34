import Lightpath.Collection.SortedMap
import Lightpath.Network.Document

/-!
# Link details — the physical elements of links

`LinkDetails` keeps the chain of amplifiers and spans of every link in a normal form: a pre-amplifier
fiber stands at the end of a chain exactly if its last real element is an amplifier
(`SectionElement.closed`).
-/

namespace Lightpath

namespace SectionElement

/-- Whether an element is the fiber behind a closing amplifier. -/
def isPreAmpFiber : SectionElement → Bool
  | .preAmpFiber => true
  | _ => false

/-- Whether an element is an amplifier. -/
def isAmp : SectionElement → Bool
  | .amp _ _ => true
  | _ => false

/-- The length of an element in km; only spans have one. -/
def lengthKm : SectionElement → Float
  | .span _ _ length => length / 1000.0
  | _ => 0.0

/-- The elements of a chain other than pre-amplifier fibers. -/
def real (elements : List SectionElement) : List SectionElement :=
  elements.filter (fun e => !e.isPreAmpFiber)

/-- The normal form of a chain: its real elements, closed by a pre-amplifier fiber if the last of
them is an amplifier. -/
def closed (elements : List SectionElement) : List SectionElement :=
  if (real elements).getLast?.any isAmp then real elements ++ [.preAmpFiber] else real elements

/-- The length of a chain in km, summed from its first element on. -/
def totalKm (elements : List SectionElement) : Float :=
  elements.foldl (fun sum e => sum + e.lengthKm) 0.0

end SectionElement

/-- The chains of elements by link. -/
structure LinkDetails where
  chains : SortedMap Ends (List SectionElement) := ∅

namespace LinkDetails

instance : Inhabited LinkDetails := ⟨{}⟩

/-- The elements of a link; none if nothing is known about it. -/
def elements (d : LinkDetails) (ends : Ends) : List SectionElement :=
  (d.chains.find? ends).getD []

/-- The length of a link in km. -/
def totalKm (d : LinkDetails) (ends : Ends) : Float :=
  SectionElement.totalKm (d.elements ends)

/-- Sets the elements of a link. -/
def set (d : LinkDetails) (ends : Ends) (elements : List SectionElement) : LinkDetails :=
  ⟨d.chains.insert ends (SectionElement.closed elements)⟩

/-- Takes over a document record. For a bidirectional one the opposite link gets the real elements
in reverse order, before the link itself is set. -/
def load (d : LinkDetails) (e : DetailEntry) : LinkDetails :=
  let elements := SectionElement.real e.elements
  if e.bidirectional then (d.set e.ends.reversed elements.reverse).set e.ends elements
  else d.set e.ends elements

/-- The details of a network document; a later record of a link replaces an earlier one. -/
def ofDocument (n : NetworkDocument) : LinkDetails := n.details.foldl load {}

/-- The details as document records in the order of the links. -/
def toEntries (d : LinkDetails) : List DetailEntry :=
  d.chains.entries.map (fun e => ⟨e.1, e.2, false⟩)

end LinkDetails

end Lightpath
