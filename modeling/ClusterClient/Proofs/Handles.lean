import ClusterClient.Profile.Registry
import Mathlib.Data.List.Nodup

/-!
# Families of handles

A handle and its copies, and their copies, are one family: whatever is mapped through one of them
is what all of them point at, and no handle of another family is touched. `History` is what was
done with names so far, and says of each handle its family, and of each family what was mapped
through it last, if anything was (`History.family?`, `History.pointee?`). `History.target?_eq` says
that this is what a handle points at.

Profiles that were built stay as they are, and a builder keeps the settings it started from however
handles are mapped meanwhile (`History.builder_eq`).
-/

namespace ClusterClient

/-- A change and then another. -/
def ProfileChange.andThen (c d : ProfileChange) : ProfileChange :=
  { timeout := d.timeout.or c.timeout
    consistency := d.consistency.or c.consistency
    balancer := d.balancer.or c.balancer
    retry := d.retry.or c.retry
    speculation := d.speculation.or c.speculation }

theorem Profile.change_change (p : Profile) (c d : ProfileChange) :
    (p.change c).change d = p.change (c.andThen d) := by
  simp [change, ProfileChange.andThen, Option.getD_or]

namespace Registration

/-- The name a registration gives to a profile. -/
def builds? : Registration → Option String
  | .build name .. => some name
  | .finishBuilder _ name => some name
  | _ => none

/-- The builder a registration starts or sets options on. -/
def holds? : Registration → Option String
  | .startBuilder builder _ => some builder
  | .setOptions builder .. => some builder
  | _ => none

/-- The options a registration sets on a builder. -/
def options? (builder : String) : Registration → Option (Option BalancerRule × ProfileChange)
  | .setOptions b balancer change => if b = builder then some (balancer, change) else none
  | _ => none

/-- Whether a registration is about handles. -/
def handling : Registration → Bool
  | .makeHandle .. | .copyHandle .. | .map .. => true
  | _ => false

/-- Whether a registration makes the first handle of a family. -/
def makes (r : Registry) : Registration → Bool
  | .makeHandle profile .. => (r.profile? profile).isSome
  | _ => false

/-- The load balancer that options name: one to be made, or one there is. -/
def namedBalancer? : Option BalancerRule × ProfileChange → Option (BalancerRule ⊕ BalancerId)
  | (some rule, _) => some (.inl rule)
  | (none, change) => change.balancer.map .inr

end Registration

namespace Registry

variable {r : Registry} {name : String}

/-- Where a builder starts, a load balancer may be made, and no more. -/
theorem startFrom_eq (r : Registry) (start : ProfileStart) :
    ∃ base? more, r.startFrom start = (base?, { r with balancers := r.balancers ++ more }) := by
  cases start with
  | standard => exact ⟨_, [⟨.roundRobin 0, false⟩], rfl⟩
  | profile | handle => exact ⟨_, [], by simp [startFrom]; rfl⟩

/-- So it is where options are set. -/
theorem setOptions_eq (r : Registry) (balancer : Option BalancerRule) (change : ProfileChange)
    (p : Profile) :
    ∃ p' more, r.setOptions balancer change p =
      (p', { r with balancers := r.balancers ++ more }) := by
  cases balancer with
  | none => exact ⟨_, [], by simp [setOptions]; rfl⟩
  | some rule => exact ⟨_, [⟨rule, false⟩], rfl⟩

/-- What a registration does: load balancers are made, and builders and profiles get the names that
were asked for. Targets and handles change only if it is about handles. -/
theorem register_eq (r : Registry) (a : Registration) :
    ∃ balancers builders profiles, (r.register a).balancers = r.balancers ++ balancers ∧
      ((r.register a).builders = builders ++ r.builders ∧
        ∀ e ∈ builders, a.holds? = some e.1) ∧
      ((r.register a).profiles = profiles ++ r.profiles ∧
        ∀ e ∈ profiles, a.builds? = some e.1) ∧
      (a.handling = false →
        (r.register a).targets = r.targets ∧ (r.register a).handles = r.handles) := by
  cases a with
  | build name start balancer change =>
    obtain ⟨base?, more, hstart⟩ := r.startFrom_eq start
    cases base? with
    | none => exact ⟨more, [], [], by simp [register, hstart]⟩
    | some base =>
      obtain ⟨p, more', hset⟩ := setOptions_eq { r with balancers := r.balancers ++ more } balancer
        change base
      exact ⟨more ++ more', [], [(name, p)],
        by simp [register, hstart, hset, Registration.builds?]⟩
  | startBuilder builder start =>
    obtain ⟨base?, more, hstart⟩ := r.startFrom_eq start
    cases base? with
    | none => exact ⟨more, [], [], by simp [register, hstart]⟩
    | some base =>
      exact ⟨more, [(builder, base)], [], by simp [register, hstart, Registration.holds?]⟩
  | setOptions builder balancer change =>
    cases hbase : r.builders.lookup builder with
    | none => exact ⟨[], [], [], by simp [register, hbase]⟩
    | some base =>
      obtain ⟨p, more, hset⟩ := r.setOptions_eq balancer change base
      exact ⟨more, [(builder, p)], [], by simp [register, hbase, hset, Registration.holds?]⟩
  | finishBuilder builder name =>
    cases hbase : r.builders.lookup builder with
    | none => exact ⟨[], [], [], by simp [register, hbase]⟩
    | some base => exact ⟨[], [], [(name, base)], by simp [register, hbase, Registration.builds?]⟩
  | makeHandle | copyHandle | map =>
    refine ⟨[], [], [], ?_⟩
    simp only [register]
    split <;> simp [Registration.handling]

/-- What has other names is found as before. -/
theorem lookup_append {α : Type} {new old : List (String × α)} (h : ∀ e ∈ new, e.1 ≠ name) :
    (new ++ old).lookup name = old.lookup name := by
  have hnone : new.lookup name = none := List.lookup_eq_none_iff.2 fun e he =>
    by simpa using (h e he).symm
  rw [List.lookup_append, hnone, Option.none_or]

theorem register_profile? {a : Registration} (h : a.builds? ≠ some name) :
    (r.register a).profile? name = r.profile? name := by
  obtain ⟨_, _, profiles, -, -, ⟨hprofiles, hnames⟩, -⟩ := r.register_eq a
  rw [profile?, hprofiles]
  exact lookup_append fun e he heq => h (heq ▸ hnames e he)

theorem register_builder {a : Registration} (h : a.holds? ≠ some name) :
    (r.register a).builders.lookup name = r.builders.lookup name := by
  obtain ⟨_, builders, _, -, ⟨hbuilders, hnames⟩, -, -⟩ := r.register_eq a
  rw [hbuilders]
  exact lookup_append fun e he heq => h (heq ▸ hnames e he)

end Registry

/-- Registrations, the latest first. -/
abbrev History := List Registration

namespace History

/-- What a history leaves. -/
def registry : History → Registry
  | [] => .empty
  | a :: past => (registry past).register a

/-- The family of a handle: the time at which the first of its handles was made, from which all
others are copied. -/
def family? : History → String → Option Nat
  | [], _ => none
  | .makeHandle profile handle label :: past, name =>
    if handle = name ∧ (Registration.makeHandle profile handle label).makes (registry past) then
      some past.length
    else family? past name
  | .copyHandle original handle :: past, name =>
    if handle = name then (family? past original).or (family? past name) else family? past name
  | _ :: past, name => family? past name

/-- What a family points at: the profile that was mapped last through any of its handles, or the
one its first handle was made of. -/
def pointee? : History → Nat → Option Profile
  | [], _ => none
  | .makeHandle profile _ _ :: past, family =>
    if past.length = family then (registry past).profile? profile else pointee? past family
  | .map handle profile :: past, family =>
    if family? past handle = some family then
      ((registry past).profile? profile).or (pointee? past family)
    else pointee? past family
  | _ :: past, family => pointee? past family

/-- The label a family was made with. -/
def label? : History → Nat → Option String
  | [], _ => none
  | .makeHandle _ _ label :: past, family =>
    if past.length = family then label else label? past family
  | _ :: past, family => label? past family

/-- What the handles of a family yield. -/
def yields? (past : History) (family : Nat) : Option Target :=
  (past.pointee? family).map (⟨·, past.label? family⟩)

/-- The families there are, in the order of their targets. -/
def families : History → List Nat
  | [] => []
  | a :: past => families past ++ if a.makes (registry past) then [past.length] else []

theorem lt_of_mem_families {past : History} {f : Nat} (h : f ∈ families past) :
    f < past.length := by
  induction past with
  | nil => cases h
  | cons a past ih =>
    rcases List.mem_append.1 h with h | h
    · exact Nat.lt_succ_of_lt (ih h)
    · obtain ⟨-, rfl⟩ : _ ∧ f = past.length := by simpa [List.mem_ite_nil_right] using h
      exact Nat.lt_succ_self _

theorem nodup_families (past : History) : (families past).Nodup := by
  induction past with
  | nil => exact .nil
  | cons a past ih =>
    refine List.nodup_append.2 ⟨ih, ?_, fun f hf g hg => ?_⟩
    · split
      · exact List.nodup_singleton _
      · exact .nil
    · obtain ⟨-, rfl⟩ : _ ∧ g = past.length := by simpa [List.mem_ite_nil_right] using hg
      exact Nat.ne_of_lt (lt_of_mem_families hf)

/-- How a registry stands to the history that left it: each target is what its family yields, and
each handle stands for the target of its family. -/
structure Kept (past : History) : Prop where
  length : (registry past).targets.length = (families past).length
  targets : ∀ i : Nat, (registry past).targets[i]? = ((families past)[i]?).bind (yields? past)
  handles : ∀ name, family? past name =
    ((registry past).handles.lookup name).bind fun i : Nat => (families past)[i]?
  known : ∀ name i, (registry past).handles.lookup name = some i → i < (families past).length

section
variable {past : History} {a : Registration}

/-- A name stands for what it was given last. -/
theorem lookup_named {α : Type} (name name' : String) (x : α) (named : List (String × α)) :
    ((name, x) :: named).lookup name' = if name = name' then some x else named.lookup name' := by
  rw [List.lookup_cons]
  split <;> split <;> simp_all

/-- A registration that leaves targets and handles alone. -/
theorem Kept.other (h : Kept past)
    (htargets : (registry (a :: past)).targets = (registry past).targets)
    (hhandles : (registry (a :: past)).handles = (registry past).handles)
    (hmakes : a.makes (registry past) = false)
    (hfamily : ∀ name, family? (a :: past) name = family? past name)
    (hyields : ∀ f < past.length, yields? (a :: past) f = yields? past f) : Kept (a :: past) := by
  have hfamilies : families (a :: past) = families past := by simp [families, hmakes]
  refine ⟨?_, fun i => ?_, fun name => ?_, fun name i => ?_⟩
  · rw [htargets, hfamilies, h.length]
  · rw [htargets, hfamilies, h.targets]
    exact Option.bind_congr fun f hf =>
      (hyields f (lt_of_mem_families (List.mem_of_getElem? hf))).symm
  · rw [hhandles, hfamilies, hfamily, h.handles]
  · rw [hhandles, hfamilies]
    exact h.known name i

theorem Kept.makeHandle (h : Kept past) (profile name : String) (label : Option String) :
    Kept (.makeHandle profile name label :: past) := by
  have hlater (f : Nat) (hf : f < past.length) :
      yields? (.makeHandle profile name label :: past) f = yields? past f := by
    simp [yields?, pointee?, label?, Nat.ne_of_gt hf]
  cases hp : (registry past).profile? profile with
  | none =>
    have hmakes : (Registration.makeHandle profile name label).makes (registry past) = false := by
      simp [Registration.makes, hp]
    refine h.other ?_ ?_ hmakes (fun name' => by simp [family?, hmakes]) hlater <;>
      simp [registry, Registry.register, hp]
  | some p =>
    have hmakes : (Registration.makeHandle profile name label).makes (registry past) = true := by
      simp [Registration.makes, hp]
    have hfamilies : families (.makeHandle profile name label :: past) =
        families past ++ [past.length] := by
      simp [families, hmakes]
    have hregistry : registry (.makeHandle profile name label :: past) =
        { registry past with
          targets := (registry past).targets ++ [⟨p, label⟩]
          handles := (name, (registry past).targets.length) :: (registry past).handles } := by
      simp [registry, Registry.register, hp, Targets.add]
    have hnew : yields? (.makeHandle profile name label :: past) past.length = some ⟨p, label⟩ := by
      simp [yields?, pointee?, label?, hp]
    refine ⟨?_, fun i => ?_, fun name' => ?_, fun name' i hi => ?_⟩
    · simp [hregistry, hfamilies, h.length]
    · rw [hregistry, hfamilies]
      rcases Nat.lt_trichotomy i (families past).length with hi | rfl | hi
      · rw [List.getElem?_append_left (h.length ▸ hi), List.getElem?_append_left hi, h.targets]
        exact Option.bind_congr fun f hf =>
          (hlater f (lt_of_mem_families (List.mem_of_getElem? hf))).symm
      · simp [← h.length, hnew]
      · rw [List.getElem?_eq_none (by simp [h.length]; omega),
          List.getElem?_eq_none (by simp; omega)]
        rfl
    · rw [hregistry, hfamilies, lookup_named]
      simp only [family?, hmakes, and_true]
      split
      · simp [h.length]
      · rw [h.handles]
        exact Option.bind_congr fun i hi => (List.getElem?_append_left (h.known name' i hi)).symm
    · rw [hregistry, lookup_named] at hi
      rw [hfamilies, List.length_append]
      split at hi
      · cases hi
        simp [h.length]
      · exact Nat.lt_add_right _ (h.known name' i hi)

theorem Kept.copyHandle (h : Kept past) (original name : String) :
    Kept (.copyHandle original name :: past) := by
  cases hid : (registry past).handles.lookup original with
  | none =>
    have hnone : family? past original = none := by rw [h.handles, hid]; rfl
    refine h.other ?_ ?_ rfl (fun name' => ?_) fun f _ => rfl
    · simp [registry, Registry.register, hid]
    · simp [registry, Registry.register, hid]
    · simp [family?, hnone]
  | some id =>
    have hfamilies : families (.copyHandle original name :: past) = families past := by
      simp [families, Registration.makes]
    have hregistry : registry (.copyHandle original name :: past) =
        { registry past with handles := (name, id) :: (registry past).handles } := by
      simp [registry, Registry.register, hid]
    have hlt := h.known original id hid
    refine ⟨?_, fun i => ?_, fun name' => ?_, fun name' i hi => ?_⟩
    · rw [hregistry, hfamilies, h.length]
    · rw [hregistry, hfamilies, h.targets]
      rfl
    · rw [hregistry, hfamilies, lookup_named]
      simp only [family?]
      split
      · rw [h.handles, hid, Option.bind_some, List.getElem?_eq_getElem hlt]
        rfl
      · exact h.handles name'
    · rw [hregistry, lookup_named] at hi
      rw [hfamilies]
      split at hi
      · exact Option.some.inj hi ▸ hlt
      · exact h.known name' i hi

theorem Kept.map (h : Kept past) (handle profile : String) :
    Kept (.map handle profile :: past) := by
  have hfamily := h.handles handle
  cases hid : (registry past).handles.lookup handle with
  | none =>
    rw [hid] at hfamily
    refine h.other ?_ ?_ rfl (fun _ => rfl) fun f _ => ?_
    · simp [registry, Registry.register, hid]
    · simp [registry, Registry.register, hid]
    · simp [yields?, pointee?, label?, hfamily]
  | some id =>
    cases hp : (registry past).profile? profile with
    | none =>
      refine h.other ?_ ?_ rfl (fun _ => rfl) fun f _ => ?_
      · simp [registry, Registry.register, hid, hp]
      · simp [registry, Registry.register, hid, hp]
      · simp [yields?, pointee?, label?, hp]
    | some p =>
      have hfamilies : families (.map handle profile :: past) = families past := by
        simp [families, Registration.makes]
      have hregistry : registry (.map handle profile :: past) =
          { registry past with targets := (registry past).targets.map id p } := by
        simp [registry, Registry.register, hid, hp]
      have hlt := h.known handle id hid
      rw [hid, Option.bind_some, List.getElem?_eq_getElem hlt] at hfamily
      refine ⟨?_, fun i => ?_, fun name => ?_, fun name i hi => ?_⟩
      · simp [hregistry, hfamilies, Targets.map, h.length]
      · rw [hregistry, hfamilies]
        simp only [Targets.map, List.getElem?_modify, h.targets, Option.map_eq_map]
        cases hf : (families past)[i]? with
        | none => rfl
        | some f =>
          obtain ⟨hi, rfl⟩ := List.getElem?_eq_some_iff.1 hf
          -- No other target is that of the family which is mapped.
          have hiff : (families past)[id] = (families past)[i] ↔ id = i :=
            (nodup_families past).getElem_inj_iff
          by_cases heq : id = i
          · subst heq
            have htarget := (h.targets id).symm
            rw [List.getElem?_eq_getElem hi, Option.bind_some,
              List.getElem?_eq_getElem (h.length ▸ hi)] at htarget
            obtain ⟨q, hq, -⟩ := Option.map_eq_some_iff.1 htarget
            simp [yields?, pointee?, label?, hfamily, hp, hq]
          · simp [yields?, pointee?, label?, hfamily, hiff, heq, Function.comp_def]
      · rw [hregistry, hfamilies]
        exact h.handles name
      · rw [hfamilies]
        rw [hregistry] at hi
        exact h.known name i hi

theorem Kept.not_handling (h : Kept past) (ha : a.handling = false) : Kept (a :: past) := by
  obtain ⟨_, _, _, -, -, -, hsame⟩ := (registry past).register_eq a
  obtain ⟨htargets, hhandles⟩ := hsame ha
  refine h.other htargets hhandles ?_ (fun name => ?_) fun f _ => ?_
  all_goals
    cases a with
    | makeHandle | copyHandle | map => cases ha
    | _ => rfl

theorem kept (past : History) : Kept past := by
  induction past with
  | nil => exact ⟨rfl, fun i => rfl, fun name => rfl, nofun⟩
  | cons a past ih =>
    cases a with
    | build | startBuilder | setOptions | finishBuilder => exact ih.not_handling rfl
    | makeHandle profile name label => exact ih.makeHandle profile name label
    | copyHandle original name => exact ih.copyHandle original name
    | map handle profile => exact ih.map handle profile

end

/-- **What a handle yields** is what was mapped last through any handle of its family, or else what
the first of them was made of, under the label it was made with. -/
theorem target?_eq (past : History) (name : String) :
    (registry past).target? name = (family? past name).bind (yields? past) := by
  rw [(kept past).handles, Option.bind_assoc]
  exact Option.bind_congr fun i _ => (kept past).targets i

/-- A handle points at something. -/
theorem exists_target {past : History} {name : String} {id : HandleId}
    (h : (registry past).handles.lookup name = some id) :
    ∃ t, (registry past).targets.target? id = some t := by
  have hlt := (kept past).known name id h
  rw [← (kept past).length] at hlt
  exact ⟨_, List.getElem?_eq_getElem hlt⟩

/-- A family begins with the making of a handle. -/
theorem exists_of_family? {past : History} {name : String} {f : Nat}
    (h : family? past name = some f) : ∃ later profile handle label earlier,
      past = later ++ .makeHandle profile handle label :: earlier ∧ f = earlier.length := by
  have hmem : f ∈ families past := by
    rw [(kept past).handles] at h
    obtain ⟨i, -, hi⟩ := Option.bind_eq_some_iff.1 h
    exact List.mem_of_getElem? hi
  clear h
  induction past with
  | nil => cases hmem
  | cons a past ih =>
    rcases List.mem_append.1 hmem with hmem | hmem
    · obtain ⟨later, profile, handle, label, earlier, rfl, rfl⟩ := ih hmem
      exact ⟨a :: later, profile, handle, label, earlier, rfl, rfl⟩
    · obtain ⟨hmakes, rfl⟩ : _ ∧ f = past.length := by
        simpa [List.mem_ite_nil_right] using hmem
      cases a with
      | makeHandle profile handle label => exact ⟨[], profile, handle, label, past, rfl, rfl⟩
      | _ => cases hmakes

/-- The label of a family is settled once it is there. -/
theorem label?_append (past : History) (later : List Registration) {f : Nat}
    (hf : f < past.length) : label? (later ++ past) f = label? past f := by
  induction later with
  | nil => rfl
  | cons a later ih =>
    cases a with
    | makeHandle profile handle label =>
      have hne : (later ++ past).length ≠ f := by rw [List.length_append]; omega
      simp only [List.cons_append, label?, if_neg hne, ih]
    | _ => exact ih

/-- Mapping through a handle is seen through the handles of its family, and through no others. -/
theorem profile_map {past : History} {handle profile : String} {family : Nat} {p : Profile}
    (hfamily : family? past handle = some family)
    (hp : (registry past).profile? profile = some p) (name : String) :
    ((registry (.map handle profile :: past)).target? name).map (·.profile) =
      if family? past name = some family then some p
      else ((registry past).target? name).map (·.profile) := by
  have hsame : family? (.map handle profile :: past) name = family? past name := rfl
  rw [target?_eq, target?_eq, hsame]
  cases hname : family? past name with
  | none => simp
  | some f =>
    by_cases heq : f = family
    · subst heq
      simp [yields?, pointee?, hfamily, hp]
    · simp [yields?, pointee?, hfamily, heq, Ne.symm heq, Function.comp_def]

/-- A profile stays as it was built until its name is given to another one. -/
theorem profile?_append {past : History} {later : List Registration} {name : String}
    (h : ∀ a ∈ later, a.builds? ≠ some name) :
    (registry (later ++ past)).profile? name = (registry past).profile? name := by
  induction later with
  | nil => rfl
  | cons a later ih =>
    rw [List.forall_mem_cons] at h
    exact (Registry.register_profile? h.1).trans (ih h.2)

/-- What was set last on a builder. -/
def lastSet? {α : Type} (builder : String) (later : List Registration)
    (setting : Option BalancerRule × ProfileChange → Option α) : Option α :=
  later.findSome? fun a => (a.options? builder).bind setting

/-- The load balancer that was named: one that was made by then, or one there was. -/
inductive Chosen (balancers : List Balancer) :
    Option (BalancerRule ⊕ BalancerId) → Option BalancerId → Prop
  | none : Chosen balancers none none
  | made {rule : BalancerRule} {id : Nat} :
      balancers[id]? = some ⟨rule, false⟩ → Chosen balancers (some (.inl rule)) (some id)
  | known {id : BalancerId} : Chosen balancers (some (.inr id)) (some id)

/-- The options that were set on a builder, each as it was set last, and no others. -/
structure Sets (builder : String) (later : List Registration) (balancers : List Balancer)
    (change : ProfileChange) : Prop where
  timeout : change.timeout = lastSet? builder later (·.2.timeout)
  consistency : change.consistency = lastSet? builder later (·.2.consistency)
  retry : change.retry = lastSet? builder later (·.2.retry)
  speculation : change.speculation = lastSet? builder later (·.2.speculation)
  balancer : Chosen balancers (lastSet? builder later Registration.namedBalancer?) change.balancer

section
variable {builder : String} {later : List Registration} {balancers : List Balancer}
  {c : ProfileChange} {a : Registration} {r : Registry}

theorem lastSet?_cons {α : Type} (builder : String) (later : List Registration) (a : Registration)
    (setting : Option BalancerRule × ProfileChange → Option α) :
    lastSet? builder (a :: later) setting =
      ((a.options? builder).bind setting).or (lastSet? builder later setting) := by
  unfold lastSet?
  rw [List.findSome?_cons]
  cases (a.options? builder).bind setting <;> rfl

theorem Chosen.append {chosen : Option (BalancerRule ⊕ BalancerId)} {id : Option BalancerId}
    (h : Chosen balancers chosen id) (more : List Balancer) :
    Chosen (balancers ++ more) chosen id := by
  cases h with
  | none => exact .none
  | made h =>
    obtain ⟨hlt, -⟩ := List.getElem?_eq_some_iff.1 h
    exact .made ((List.getElem?_append_left hlt).trans h)
  | known => exact .known

/-- What sets no options leaves them as they are. -/
theorem Sets.skip (h : Sets builder later balancers c) (ha : a.options? builder = none)
    (more : List Balancer) : Sets builder (a :: later) (balancers ++ more) c where
  timeout := by rw [lastSet?_cons, ha]; exact h.timeout
  consistency := by rw [lastSet?_cons, ha]; exact h.consistency
  retry := by rw [lastSet?_cons, ha]; exact h.retry
  speculation := by rw [lastSet?_cons, ha]; exact h.speculation
  balancer := by rw [lastSet?_cons, ha]; exact h.balancer.append more

theorem Chosen.or {chosen chosen' : Option (BalancerRule ⊕ BalancerId)} {id id' : Option BalancerId}
    (h : Chosen balancers chosen id) (h' : Chosen balancers chosen' id') :
    Chosen balancers (chosen.or chosen') (id.or id') := by
  cases h with
  | none => simpa using h'
  | made h => exact .made h
  | known => exact .known

/-- Options that are set change a profile in what they say. Their load balancer is there then. -/
theorem setOptions_change (r : Registry) (balancer : Option BalancerRule) (d : ProfileChange)
    (p : Profile) :
    ∃ id, (r.setOptions balancer d p).1 = p.change { d with balancer := id } ∧
      Chosen (r.setOptions balancer d p).2.balancers
        (Registration.namedBalancer? (balancer, d)) id := by
  cases balancer with
  | none =>
    refine ⟨d.balancer, rfl, ?_⟩
    cases hd : d.balancer with
    | none => simpa [Registration.namedBalancer?, hd] using .none
    | some id => simpa [Registration.namedBalancer?, hd] using .known
  | some rule =>
    refine ⟨some r.balancers.length, rfl, .made ?_⟩
    simp [Registry.setOptions, Registry.addBalancer]

/-- What sets options goes before what was set. -/
theorem Sets.set (h : Sets builder later r.balancers c) (balancer : Option BalancerRule)
    (d : ProfileChange) (base : Profile) :
    ∃ c', (r.setOptions balancer d (base.change c)).1 = base.change c' ∧
      Sets builder (.setOptions builder balancer d :: later)
        (r.setOptions balancer d (base.change c)).2.balancers c' := by
  have hlast {α : Type} (setting : Option BalancerRule × ProfileChange → Option α) :
      lastSet? builder (.setOptions builder balancer d :: later) setting =
        (setting (balancer, d)).or (lastSet? builder later setting) := by
    simp [lastSet?_cons, Registration.options?]
  obtain ⟨id, hchange, hchosen⟩ := setOptions_change r balancer d (base.change c)
  obtain ⟨p, more, hset⟩ := r.setOptions_eq balancer d (base.change c)
  refine ⟨c.andThen { d with balancer := id }, hchange.trans (Profile.change_change ..),
    ?_, ?_, ?_, ?_, ?_⟩
  · rw [hlast, ← h.timeout]; rfl
  · rw [hlast, ← h.consistency]; rfl
  · rw [hlast, ← h.retry]; rfl
  · rw [hlast, ← h.speculation]; rfl
  · rw [hlast]
    rw [hset] at hchosen ⊢
    exact hchosen.or (h.balancer.append more)

/-- Building a profile in one go is starting a builder, setting the options and finishing it. -/
theorem build_eq {past : History} {start : ProfileStart} {base : Profile}
    (hstart : ((registry past).startFrom start).1 = some base) (builder name : String)
    (balancer : Option BalancerRule) (change : ProfileChange) :
    (registry (.build name start balancer change :: past)).profile? name =
      (registry (.finishBuilder builder name :: .setOptions builder balancer change ::
        .startBuilder builder start :: past)).profile? name := by
  rcases hfrom : (registry past).startFrom start with ⟨base?, r⟩
  obtain rfl : base? = some base := (congrArg Prod.fst hfrom).symm.trans hstart
  cases balancer <;>
    simp [registry, Registry.register, hfrom, Registry.setOptions, Registry.addBalancer,
      Registry.profile?]

/-- **A builder holds what it started from, with the options set on it since**, whatever else has
happened. -/
theorem builder_eq {past : History} {start : ProfileStart} {base : Profile}
    (hstart : ((registry past).startFrom start).1 = some base)
    (hlater : ∀ a ∈ later, ∀ s, a ≠ .startBuilder builder s) :
    ∃ change, (registry (later ++ .startBuilder builder start :: past)).builders.lookup builder =
        some (base.change change) ∧
      Sets builder later (registry (later ++ .startBuilder builder start :: past)).balancers
        change := by
  induction later with
  | nil =>
    refine ⟨{}, ?_, rfl, rfl, rfl, rfl, .none⟩
    rcases hfrom : (registry past).startFrom start with ⟨base?, r⟩
    obtain rfl : base? = some base := (congrArg Prod.fst hfrom).symm.trans hstart
    simp [registry, Registry.register, hfrom]
    rfl
  | cons a later ih =>
    obtain ⟨hfirst, hlater⟩ := List.forall_mem_cons.1 hlater
    obtain ⟨c, hbuilder, hsets⟩ := ih hlater
    rw [List.cons_append, registry]
    generalize registry (later ++ .startBuilder builder start :: past) = r at hbuilder hsets ⊢
    cases hoptions : a.options? builder with
    | none =>
      have hholds : a.holds? ≠ some builder := by
        cases a with
        | startBuilder b s =>
          rintro ⟨⟩
          exact hfirst s rfl
        | setOptions b balancer d =>
          rintro ⟨⟩
          simp [Registration.options?] at hoptions
        | _ => nofun
      obtain ⟨more, _, _, hmore, -⟩ := r.register_eq a
      rw [Registry.register_builder hholds, hmore]
      exact ⟨c, hbuilder, hsets.skip hoptions more⟩
    | some options =>
      cases a with
      | setOptions b balancer d =>
        obtain rfl : b = builder := by
          by_contra hne
          simp [Registration.options?, hne] at hoptions
        obtain ⟨c', hchange, hsets⟩ := hsets.set balancer d base
        refine ⟨c', ?_, ?_⟩
        · simp [Registry.register, hbuilder, hchange]
        · simpa [Registry.register, hbuilder] using hsets
      | _ => cases hoptions

end

end History

end ClusterClient
