import Lightpath.Numeric.Double
import Lightpath.Signal.Grid
import Lightpath.Wavelength.Leg

/-!
# Candidates — what planning offers for reservation

An `Offer` is a leg with the channels that it could use. A candidate is one offer, or a pair of
disjoint ones of which the second protects the first. Candidates are ranked by quality, best first;
among equals the order in which they were found is kept.
-/

namespace Lightpath

/-- A leg with the channels that it could use. -/
structure Offer where
  leg : Leg
  /-- The channels by frequency id. -/
  signals : SortedMap Int Signal
deriving Inhabited

/-- What can be reserved together. -/
inductive Candidate where
  | single (offer : Offer)
  | pair (main tributary : Offer)
deriving Inhabited

namespace Candidate

/-- The offers of a candidate, the main one first. -/
def offers : Candidate → List Offer
  | .single o => [o]
  | .pair main tributary => [main, tributary]

/-- The name of the kind of a candidate. -/
def kind : Candidate → String
  | .single _ => "Single-path"
  | .pair _ _ => "Disjoint-path"

/-- The written form: the kind and every leg in brackets. -/
def display (c : Candidate) : String :=
  c.kind ++ String.join (c.offers.map fun o => " [" ++ o.leg.display ++ "]")

end Candidate

namespace Offer

/-- How two offers compare by quality, the better one being less. -/
def rank (a b : Offer) : Ordering := totalOrder b.leg.quality.q a.leg.quality.q

/-- Offers as single candidates, best first. -/
def singles (offers : List Offer) : List Candidate :=
  (offers.mergeSort (fun a b => (rank a b).isLE)).map .single

/-- How two pairs compare: by their main offers, then by their tributaries. -/
def rankPairs (a b : Offer × Offer) : Ordering := (rank a.1 b.1).then (rank a.2 b.2)

/-- Every main offer with every tributary that is disjoint from it. -/
def disjointPairs (mains tributaries : List Offer) : List (Offer × Offer) :=
  mains.flatMap fun m => (tributaries.filter (fun t => m.leg.isDisjoint t.leg)).map fun t => (m, t)

/-- The disjoint pairs as candidates, best first. -/
def pairs (mains tributaries : List Offer) : List Candidate :=
  ((disjointPairs mains tributaries).mergeSort (fun a b => (rankPairs a b).isLE)).map
    fun p => .pair p.1 p.2

end Offer

end Lightpath
