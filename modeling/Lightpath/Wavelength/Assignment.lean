import Lightpath.Quality.ModeChoice
import Lightpath.Wavelength.Candidate
import Lightpath.Wavelength.Spectrum
import Lightpath.Wdm.Catalog

/-!
# Assignment — candidates between transponder ports

A pair of transponder ports is joined by WDM paths between the add and the drop port that they are
linked to. A WDM path gives an offer if it has a way back, a channel is free along it and a mode is
usable in both directions. One pair of ports gives single candidates, two pairs give disjoint ones.
-/

namespace Lightpath

/-- What candidates are computed from. -/
structure Outlook where
  topology : Topology
  ledger : Ledger
  catalog : Catalog
  quality : QualitySettings
  frequencies : FrequencyPlan

/-- The only active link of a list. -/
def onlyActive (links : List Link) (cp : ConnectPoint) : Except Failure Link :=
  match links.filter Link.isActive with
  | [l] => .ok l
  | _ => .error (.noSingleLink cp)

namespace Outlook

/-- The offer of a WDM path between two edges, if it can be used. -/
def offer? (o : Outlook) (ingressEdge egressEdge : Link) (device : Device) (p : WdmPath) :
    Option Offer :=
  match o.catalog.getReverse? p with
  | none => none
  | some back =>
    let slots := o.ledger.commonLambdas (o.topology.lambdaHops p.route)
    if slots.isEmpty then none
    else
      (o.quality.chooseMode? device p.osnr back.osnr).map fun choice =>
        ⟨⟨ingressEdge, egressEdge, p.route, choice.1, choice.2⟩, o.frequencies.offered slots⟩

/-- The edges of a leg between two transponder ports. -/
def edges (o : Outlook) (e : Ends) : Except Failure (Link × Link) :=
  match onlyActive (o.topology.egressLinks e.src) e.src with
  | .error f => .error f
  | .ok ingressEdge =>
    match onlyActive (o.topology.ingressLinks e.dst) e.dst with
    | .error f => .error f
    | .ok egressEdge => .ok (ingressEdge, egressEdge)

/-- The device that receives over an edge, if all ports of both edges are free. -/
def receiver (o : Outlook) (ingressEdge egressEdge : Link) : Except Failure Device :=
  let ports := [ingressEdge.src, ingressEdge.dst, egressEdge.src, egressEdge.dst]
  match ports.find? (fun cp => !o.ledger.isAvailable (.port cp)) with
  | some cp => .error (.portInUse cp)
  | none =>
    match o.topology.device? egressEdge.dst.device with
    | none => .error (.endDeviceMissing egressEdge.dst.device)
    | some d => .ok d

/-- The offers between two transponder ports, in the order of the catalog. -/
def offers (o : Outlook) (e : Ends) : Except Failure (List Offer) :=
  match o.edges e with
  | .error f => .error f
  | .ok (ingressEdge, egressEdge) =>
    match o.receiver ingressEdge egressEdge with
    | .error f => .error f
    | .ok device =>
      let paths := o.catalog.getPaths (some ingressEdge.dst) (some egressEdge.src)
      let found := paths.filterMap (o.offer? ingressEdge egressEdge device)
      if found.isEmpty && !paths.isEmpty then .error (.allRoutesRejected e.src e.dst) else .ok found

/-- The candidates for one pair of transponder ports, or for two disjoint ones. -/
def candidates (o : Outlook) : List Ends → Except Failure (List Candidate)
  | [e] =>
    match o.offers e with
    | .error f => .error f
    | .ok found => .ok (Offer.singles found)
  | [main, tributary] =>
    match o.offers main with
    | .error f => .error f
    | .ok mains =>
      match o.offers tributary with
      | .error f => .error f
      | .ok tributaries => .ok (Offer.pairs mains tributaries)
  | other => .error (.badPairCount other.length)

end Outlook

end Lightpath
