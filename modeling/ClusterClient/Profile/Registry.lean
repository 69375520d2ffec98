import ClusterClient.Profile.Basic

/-!
# Named profiles and handles

A `Registry` keeps profiles, handles and builders under names. A builder starts from the standard
profile, from another profile, or from what a handle points at then; options are set on it, and it
is finished to a profile, all at once or one by one. A handle is made from a profile or copied from
another handle, and may be mapped to another profile at any time.
-/

namespace ClusterClient

/-- Profiles, handles and builders under names. -/
structure Registry where
  balancers : List Balancer
  targets : Targets
  /-- What the builders hold so far. -/
  builders : List (String × Profile)
  profiles : List (String × Profile)
  handles : List (String × HandleId)

/-- Where the building of a profile starts. -/
inductive ProfileStart where
  | standard
  | profile (name : String)
  | handle (name : String)

/-- What to do with the names. -/
inductive Registration where
  /-- Starts a builder, sets options on it and finishes it. -/
  | build (name : String) (start : ProfileStart) (balancer : Option BalancerRule)
      (change : ProfileChange)
  | startBuilder (builder : String) (start : ProfileStart)
  | setOptions (builder : String) (balancer : Option BalancerRule) (change : ProfileChange)
  | finishBuilder (builder name : String)
  | makeHandle (profile name : String) (label : Option String)
  | copyHandle (handle name : String)
  | map (handle profile : String)

namespace Registry

/-- No names yet. -/
def empty : Registry := ⟨[], [], [], [], []⟩

/-- The profile of a name. -/
def profile? (r : Registry) (name : String) : Option Profile :=
  r.profiles.lookup name

/-- The target of the handle of a name. -/
def target? (r : Registry) (handle : String) : Option Target :=
  (r.handles.lookup handle).bind r.targets.target?

/-- Makes a load balancer. -/
def addBalancer (r : Registry) (rule : BalancerRule) : BalancerId × Registry :=
  (r.balancers.length, { r with balancers := r.balancers ++ [⟨rule, false⟩] })

/-- The profile to start from. The standard one has a load balancer of its own. -/
def startFrom (r : Registry) : ProfileStart → Option Profile × Registry
  | .standard =>
    let (id, r) := r.addBalancer (.roundRobin 0)
    (some (.standard id), r)
  | .profile name => (r.profile? name, r)
  | .handle name => ((r.target? name).map (·.profile), r)

/-- Sets options of a profile. A load balancer that is given is made for it. -/
def setOptions (r : Registry) (balancer : Option BalancerRule) (change : ProfileChange)
    (p : Profile) : Profile × Registry :=
  match balancer with
  | none => (p.change change, r)
  | some rule =>
    let (id, r) := r.addBalancer rule
    (p.change { change with balancer := some id }, r)

/-- Does one registration. One that names nothing known does nothing. -/
def register (r : Registry) : Registration → Registry
  | .build name start balancer change =>
    match r.startFrom start with
    | (none, r) => r
    | (some base, r) =>
      let (p, r) := r.setOptions balancer change base
      { r with profiles := (name, p) :: r.profiles }
  | .startBuilder builder start =>
    match r.startFrom start with
    | (none, r) => r
    | (some base, r) => { r with builders := (builder, base) :: r.builders }
  | .setOptions builder balancer change =>
    match r.builders.lookup builder with
    | none => r
    | some base =>
      let (p, r) := r.setOptions balancer change base
      { r with builders := (builder, p) :: r.builders }
  | .finishBuilder builder name =>
    match r.builders.lookup builder with
    | none => r
    | some p => { r with profiles := (name, p) :: r.profiles }
  | .makeHandle profile name label =>
    match r.profile? profile with
    | none => r
    | some p =>
      let (id, targets) := r.targets.add p label
      { r with targets := targets, handles := (name, id) :: r.handles }
  | .copyHandle handle name =>
    match r.handles.lookup handle with
    | none => r
    | some id => { r with handles := (name, id) :: r.handles }
  | .map handle profile =>
    match r.handles.lookup handle, r.profile? profile with
    | some id, some p => { r with targets := r.targets.map id p }
    | _, _ => r

/-- The name of the load balancer of a profile. -/
def balancerName (balancers : List Balancer) (p : Profile) : String :=
  (balancers[p.balancer]?.map (·.rule.name)).getD ""

end Registry

end ClusterClient
