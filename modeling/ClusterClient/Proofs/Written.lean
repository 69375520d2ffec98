import ClusterClient.Proofs.Repeating

/-!
# The mark of a written request

An attempt is marked as written so that its retry session knows whether the statement may have been
applied: a request other than a preparation was acknowledged, and the node did not refuse it as
unprepared (`Act.MayApply`). The mark holds in two cases more (`Act.Overcounted`): a call for a
preparation counts its own request, and a request that is refused as unprepared and not prepared for
again stays counted. `Execution.Arises.marked` says that these are all, at every point of every
attempt and in every report to a retry session; `Execution.written_without_effect` has attempts
that are overcounted.

The mark is a matter of three things (`Attempt.Hears`): the request under way, whether it was
acknowledged, and whether the node answered it as unprepared.
-/

namespace ClusterClient

/-- Whether a request is a preparation. -/
def Request.isPreparation : Request → Bool
  | .prepare _ => true
  | .query .. | .execute .. => false

/-- Whether a call is for a preparation. -/
def Call.isPreparation : Call → Bool
  | .prepare _ => true
  | .query .. | .execute .. => false

@[simp] theorem Call.request_isPreparation (call : Call) (consistency : Consistency) :
    (call.request consistency).isPreparation = call.isPreparation := by
  cases call <;> rfl

/-- A preparation executes no prepared statement. -/
theorem Call.preparedId?_of_isPreparation {call : Call} (h : call.isPreparation = true) :
    call.preparedId? = none := by
  cases call with
  | prepare text => rfl
  | query | execute => cases h

theorem Response.isUnprepared_iff {r : Response} :
    r.isUnprepared = true ↔ ∃ id reason, r.body = .error (.unprepared id) reason := by
  unfold isUnprepared
  split
  · next id reason hbody => simp [hbody]
  · next hbody => simpa using hbody

namespace Act

/-- The node refused a request of an attempt as unprepared. -/
def Refused (n : Nat) (stage : Stage) (acts : List Act) : Prop :=
  ∃ signal, .heard n stage signal ∈ acts ∧ signal.isUnprepared = true

/-- An attempt got a request onto its connection that may have applied the statement. -/
def MayApply (n : Nat) (acts : List Act) : Prop :=
  ∃ stage connection request, .issued n stage connection request ∈ acts ∧
    request.isPreparation = false ∧ .heard n stage .acknowledged ∈ acts ∧ ¬ Refused n stage acts

/-- A request of an attempt is counted although it cannot have applied the statement: a preparation
that is the call's own request, or one that is refused as unprepared and not prepared for again. -/
def Overcounted (call : Call) (n : Nat) (acts : List Act) : Prop :=
  call.isPreparation = true ∧ .heard n .first .acknowledged ∈ acts ∨
    Refused n .repeated acts ∨ call.preparedId? = none ∧ Refused n .first acts

/-- How the mark of an attempt agrees with what was heard for it. -/
structure Marks (call : Call) (n : Nat) (acts : List Act) (written : Bool) : Prop where
  written_iff : written = true ↔ MayApply n acts ∨ Overcounted call n acts
  apart : ¬ (MayApply n acts ∧ Overcounted call n acts)

/-- Nothing is heard for an attempt. -/
def Unheard (n : Nat) (acts : List Act) : Prop :=
  ∀ stage signal, .heard n stage signal ∉ acts

section
variable {n : Nat} {stage : Stage} {acts more : List Act}

theorem refused_append :
    Refused n stage (acts ++ more) ↔ Refused n stage acts ∨ Refused n stage more := by
  simp [Refused, or_and_right, exists_or]

@[simp] theorem refused_heard {m : Nat} {other : Stage} {signal : Signal} :
    Refused n stage [.heard m other signal] ↔
      n = m ∧ stage = other ∧ signal.isUnprepared = true := by
  simp only [Refused, List.mem_singleton, heard.injEq]
  constructor
  · rintro ⟨_, ⟨rfl, rfl, rfl⟩, h⟩
    exact ⟨rfl, rfl, h⟩
  · rintro ⟨rfl, rfl, h⟩
    exact ⟨signal, ⟨rfl, rfl, rfl⟩, h⟩

theorem Unheard.not_refused (h : Unheard n acts) : ¬ Refused n stage acts :=
  fun ⟨signal, hmem, _⟩ => h stage signal hmem

end

end Act

namespace Attempt

variable {a b : Attempt} {n : Nat} {acts : List Act} {signal : Signal}

/-! ## What was heard for one attempt -/

/-- What was heard for an attempt as far as its mark goes. `last` says whether the request under way
was refused as unprepared. -/
structure Hears (n : Nat) (acts : List Act) (a : Attempt) (last : Bool) : Prop where
  speaking : a.Speaking n acts
  written : a.written = true ↔ a.acknowledged = true ∧ a.stage ≠ .reprepare
  refused : ∀ stage, Act.Refused n stage acts ↔
    stage = .first ∧ a.stage ≠ .first ∨ stage = a.stage ∧ last = true
  /-- A prepared statement is prepared again after the first refusal. -/
  final : last = true → a.acknowledged = true ∧ (a.stage = .first → a.call.preparedId? = none)

/-- The requests of an attempt are issued one after the other, up to the one under way. -/
theorem Speaking.issued_iff (h : a.Speaking n acts) {stage : Stage} {connection : Connection}
    {request : Request} : .issued n stage connection request ∈ acts ↔
      stage.place ≤ a.stage.place ∧ connection = a.connection ∧
        request = { a with stage := stage }.request := by
  have hmem : .issued n stage connection request ∈ acts ↔
      (stage, connection, request) ∈ a.script.take (a.stage.place + 1) := by
    rw [← h.dialogue.issued, List.mem_filterMap]
    refine ⟨fun hmem => ⟨_, hmem, by simp [Act.issue?]⟩, ?_⟩
    rintro ⟨act, hact, hissue⟩
    cases act with
    | issued m =>
      simp only [Act.issue?] at hissue
      split at hissue
      · cases hissue
        subst m
        exact hact
      · cases hissue
    | _ => cases hissue
  have hprepared := h.prepared
  rw [hmem]
  cases hs : a.stage <;> cases hid : a.call.preparedId? <;> cases stage <;>
    simp_all [script, Call.script, Call.requests, Stage.place, Attempt.request]

/-- They are acknowledged in that order as well. -/
theorem Speaking.acknowledged_iff (h : a.Speaking n acts) {stage : Stage} :
    .heard n stage .acknowledged ∈ acts ↔
      stage.place < a.stage.place ∨ stage = a.stage ∧ a.acknowledged = true := by
  have hmem : .heard n stage .acknowledged ∈ acts ↔ stage ∈
      (a.script.take (a.stage.place + if a.acknowledged then 1 else 0)).map (·.1) := by
    rw [← h.dialogue.acknowledged, List.mem_filterMap]
    refine ⟨fun hmem => ⟨_, hmem, by simp [Act.acknowledgement?]⟩, ?_⟩
    rintro ⟨act, hact, hheard⟩
    cases act with
    | heard m stage' signal =>
      cases signal with
      | acknowledged =>
        simp only [Act.acknowledgement?] at hheard
        split at hheard
        · cases hheard
          subst m
          exact hact
        · cases hheard
      | _ => cases hheard
    | _ => cases hheard
  have hprepared := h.prepared
  rw [hmem]
  cases hs : a.stage <;> cases hid : a.call.preparedId? <;> cases ha : a.acknowledged <;>
    cases stage <;> simp_all [script, Call.script, Call.requests, Stage.place]

variable {last : Bool}

/-- Only the request under way may have applied the statement: those before it were refused, or
are preparations. -/
theorem Hears.mayApply_iff (h : a.Hears n acts last) :
    Act.MayApply n acts ↔ a.call.isPreparation = false ∧ a.acknowledged = true ∧
      a.stage ≠ .reprepare ∧ last = false := by
  constructor
  · rintro ⟨stage, connection, request, hissued, hrequest, hheard, hrefused⟩
    obtain ⟨hplace, -, rfl⟩ := h.speaking.issued_iff.1 hissued
    rw [h.speaking.acknowledged_iff] at hheard
    rw [h.refused] at hrefused
    push Not at hrefused
    have hnot : stage ≠ .reprepare := by
      rintro rfl
      cases hrequest
    have hstage : stage = a.stage := by
      cases hs : a.stage <;> cases stage <;> simp_all [Stage.place]
    subst hstage
    refine ⟨?_, by simpa using hheard, hnot, by simpa using hrefused.2 rfl⟩
    cases hs : a.stage <;> simp_all [Attempt.request]
  · rintro ⟨hcall, hacknowledged, hstage, rfl⟩
    refine ⟨a.stage, a.connection, a.request, ?_, ?_, ?_, ?_⟩
    · rw [h.speaking.issued_iff]
      exact ⟨Nat.le_refl _, rfl, rfl⟩
    · cases hs : a.stage <;> simp_all [Attempt.request]
    · rw [h.speaking.acknowledged_iff]
      exact .inr ⟨rfl, hacknowledged⟩
    · rw [h.refused]
      rintro (⟨hfirst, hne⟩ | ⟨-, hlast⟩)
      · exact hne hfirst
      · cases hlast

/-- A request is counted without having applied anything if it is the call's own preparation, or was
refused and is not prepared for again. -/
theorem Hears.overcounted_iff (h : a.Hears n acts last) :
    Act.Overcounted a.call n acts ↔ a.call.isPreparation = true ∧ a.acknowledged = true ∨
      last = true ∧ a.stage ≠ .reprepare := by
  have hprepared := h.speaking.prepared
  have hcall := a.call.preparedId?_of_isPreparation
  have hfinal := h.final
  simp only [Act.Overcounted, h.speaking.acknowledged_iff, h.refused]
  cases hs : a.stage with
  | first => grind [Stage.place]
  | reprepare => grind [Stage.place]
  | repeated => grind [Stage.place]

/-- The mark of an attempt holds as `Act.Marks` says. -/
theorem Hears.marks (h : a.Hears n acts last) : Act.Marks a.call n acts a.written := by
  have hfirst : a.call.isPreparation = true → a.stage = .first := by
    intro hcall
    by_contra hs
    have := h.speaking.prepared hs
    rw [Call.preparedId?_of_isPreparation hcall] at this
    cases this
  have hfinal := h.final
  constructor
  · rw [h.written, h.mayApply_iff, h.overcounted_iff]
    grind
  · rw [h.mayApply_iff, h.overcounted_iff]
    grind

/-! ## What is heard next -/

theorem Hears.start {call : Call} {consistency : Consistency} {connection : Connection}
    (h : Act.Silent n acts) (hunheard : Act.Unheard n acts) (i : Nat) (node : Node) :
    Hears n (acts ++ [.began n i node connection,
      .issued n .first connection (call.request consistency)])
      (.start call consistency connection) false where
  speaking := .start h i node
  written := by simp [Attempt.start]
  refused stage := by
    have hmore : Act.Unheard n [.began n i node connection,
      .issued n .first connection (call.request consistency)] := by simp [Act.Unheard]
    simp [Act.refused_append, hunheard.not_refused, hmore.not_refused, Attempt.start]
  final := nofun

/-- What is said for another attempt does not matter. -/
theorem Hears.other {more : List Act} (h : a.Hears n acts last) (hsilent : Act.Silent n more)
    (hunheard : Act.Unheard n more) : a.Hears n (acts ++ more) last where
  speaking := h.speaking.silent hsilent
  written := h.written
  refused stage := by simp [Act.refused_append, hunheard.not_refused, h.refused]
  final := h.final

theorem Hears.waits (h : a.Hears n acts false) (he : a.expects signal = true)
    (hr : a.react signal = .waits b) : b.Hears n (acts ++ [.heard n a.stage signal]) false := by
  have hspeaking := h.speaking.waits he hr
  obtain ⟨rfl, rfl⟩ := react_waits hr
  have hnone : a.acknowledged = false := by simpa [expects] using he
  have hwritten := h.written
  refine ⟨hspeaking, ?_, fun stage => ?_, by simp⟩
  · simp_all
  · simp [Act.refused_append, h.refused, Signal.isUnprepared]

/-- An attempt that prepares its statement again was refused, and loses its mark. -/
theorem Hears.sends (h : a.Hears n acts false) (he : a.expects signal = true)
    (hr : a.react signal = .sends b) :
    b.Hears n (acts ++ [.heard n a.stage signal, .issued n b.stage b.connection b.request])
      false := by
  have hspeaking := h.speaking.sends he hr
  have hissued : Act.Unheard n [.issued n b.stage b.connection b.request] := by
    simp [Act.Unheard]
  have hwritten := h.written
  rw [List.append_cons] at hspeaking ⊢
  refine ⟨hspeaking, ?_, fun stage => ?_, nofun⟩
  · obtain ⟨r, id, -, -, ⟨-, -, rfl⟩ | ⟨hs, -, rfl⟩⟩ := react_sends hr <;> simp_all
  · rw [Act.refused_append, Act.refused_append, h.refused]
    obtain ⟨r, id, rfl, -, ⟨hs, ⟨known, reason, hbody⟩, rfl⟩ | ⟨hs, hbody, rfl⟩⟩ := react_sends hr
    · simp [hissued.not_refused, hs, Signal.isUnprepared, Response.isUnprepared, hbody]
    · simp [hissued.not_refused, hs, Signal.isUnprepared, Response.isUnprepared, hbody]

/-- An attempt that ends keeps its mark, also if it ends because it was refused. -/
theorem Hears.ends {result : Except AttemptError Answer} (h : a.Hears n acts false)
    (he : a.expects signal = true) (hr : a.react signal = .ends a result) :
    a.Hears n (acts ++ [.heard n a.stage signal]) signal.isUnprepared where
  speaking := h.speaking.silent (Act.silent_heard fun _ => react_ends_ne hr)
  written := h.written
  refused stage := by simp [Act.refused_append, h.refused]
  final hlast := by
    cases signal with
    | acknowledged | writeFailed cause => cases hlast
    | delivered d =>
      cases d with
      | error cause => cases hlast
      | ok r =>
        obtain ⟨id, reason, hbody⟩ := Response.isUnprepared_iff.1 hlast
        refine ⟨he, fun hs => ?_⟩
        cases hid : a.call.preparedId? with
        | none => rfl
        | some known =>
          -- Such an attempt goes on to prepare its statement again.
          simp [react, receive, hs, afterFirst, hid, Response.answer, hbody] at hr

end Attempt

/-! ## Along a run -/

/-- What comes before a report to a retry session: the failure of the attempt it is about, whose
mark the report gives. -/
def Act.Reckoned (call : Call) (before : List Act) : Act → Prop
  | .reported i report _ => ∃ earlier n node,
    before = earlier ++ [.failed n i node report.error] ∧
      Marks call n earlier report.written
  | _ => True

/-- In a move nothing is heard but for the attempt that was waited for before it. -/
theorem Pose.Move.unheard {ω : Type} {env : Environment ω} {settings : Settings} {p p' : Pose}
    {s s' : Shared} {acts : List Act} (h : Move env settings p s acts p' s') {n : Nat}
    (hn : ∀ c, p.stance = .waiting c → c.number ≠ n) : Act.Unheard n acts := by
  have falters {c : Current} {error : AttemptError} {heard : List Act}
      (hs : p.stance = .waiting c) (hf : Fiber.Falters settings c error heard) :
      Act.Unheard n heard := by
    have hne := hn c hs
    cases hf with
    | heard he hr => simp [Act.Unheard, hne.symm]
    | timedOut hl => simp [Act.Unheard]
  intro stage signal hmem
  cases h with
  | exhausted | takes | refused | begins => simp at hmem
  | waits hs | sends hs | succeeds hs =>
    have hne := hn _ hs
    simp [hne.symm] at hmem
  | fails hs hf | ignores hs hf =>
    have := falters hs hf stage signal
    simp [this] at hmem

namespace Trail

variable {ω : Type} {env : Environment ω} {settings : Settings} {acts : List Act} {s : Shared}
  {ps : List Pose} {p : Pose} {i : Nat} {c : Current}

/-- What is heard is heard for an attempt that was begun. -/
theorem unheard (h : Trail env settings acts s ps) {n : Nat} (hn : s.attempts ≤ n) :
    Act.Unheard n acts := by
  induction h with
  | start => simp [Act.Unheard]
  | opens rule _ ih =>
    intro stage signal hmem
    have := ih hn stage signal
    simp [this] at hmem
  | @moves acts more s s' ps p p' h hp hmove ih =>
    have hle := hmove.attempts_le
    have hbefore := ih (Nat.le_trans hle hn)
    have hmore : Act.Unheard n more := hmove.unheard fun c hc => by
      have := h.number_lt hp hc
      omega
    intro stage signal hmem
    rcases List.mem_append.1 hmem with hmem | hmem
    · exact hbefore stage signal hmem
    · exact hmore stage signal hmem

/-- **What was heard for an attempt that is waited for** is what `Attempt.Hears` says, whatever is
heard for others in between. -/
theorem hears (h : Trail env settings acts s ps) (hp : ps[i]? = some p)
    (hc : p.stance = .waiting c) : c.attempt.Hears c.number acts false := by
  induction h generalizing i p c with
  | start => simp at hp
  | opens rule _ ih =>
    rcases opens_cases hp with hp | ⟨-, rfl⟩
    · exact (ih hp hc).other ⟨rfl, rfl⟩ (by simp [Act.Unheard])
    · cases hc
  | @moves acts more s s' ps q q' h hq hmove ih =>
    have hafter := h.moves hq hmove
    rcases set_cases hp with ⟨rfl, rfl⟩ | ⟨hne, hold⟩
    · cases hmove with
      | begins hs =>
        cases hc
        exact .start (h.speech.unbegun _ (Nat.le_refl _)) (h.unheard (Nat.le_refl _)) _ _
      | waits hs hr he =>
        cases hc
        exact (ih hq hs).waits he hr
      | sends hs hr he =>
        cases hc
        exact (ih hq hs).sends he hr
      | @fails c' error heard lore decision hs hf hd hne => cases decision <;> cases hc
      | exhausted | takes | refused | succeeds | ignores => cases hc
    · obtain ⟨hlt, -⟩ := List.getElem?_eq_some_iff.1 hq
      have hq' : (ps.set q.index q')[q.index]? = some q' := by simp [hlt]
      refine (ih hold hc).other (hmove.silent fun d hd hn => hne ?_)
        (hmove.unheard fun d hd hn => hne ?_)
      · exact (hafter.waiting_unique hq' hp hd hc hn).symm
      · exact (h.waiting_unique hq hold hd hc hn).symm

/-- The mark of an attempt that is waited for holds as it should. -/
theorem marks (h : Trail env settings acts s ps) (hp : ps[i]? = some p)
    (hc : p.stance = .waiting c) : Act.Marks settings.call c.number acts c.attempt.written :=
  (h.underway hp hc).call_eq ▸ (h.hears hp hc).marks

/-- It does so also once the attempt has ended. -/
theorem marks_ends (h : Trail env settings acts s ps) (hp : ps[i]? = some p)
    (hc : p.stance = .waiting c) {signal : Signal} {result : Except AttemptError Answer}
    (he : c.attempt.expects signal = true) (hr : c.attempt.react signal = .ends c.attempt result) :
    Act.Marks settings.call c.number (acts ++ [.heard c.number c.attempt.stage signal])
      c.attempt.written :=
  (h.underway hp hc).call_eq ▸ ((h.hears hp hc).ends he hr).marks

/-- **Every report gives the mark of the attempt that failed.** -/
theorem journal_reckoned (h : Trail env settings acts s ps) :
    Journal (Act.Reckoned settings.call) acts := by
  refine h.journal (fun _ _ => trivial) ?_
  intro acts more s s' ps p p' h hp hmove
  have reported {c : Current} {error : AttemptError} {heard : List Act} (decision : Decision)
      (hs : p.stance = .waiting c) (hf : Fiber.Falters settings c error heard) :
      Journal (fun before => Act.Reckoned settings.call (acts ++ before))
        (heard ++ [.failed c.number p.index c.node error,
          .reported p.index (p.reportOn settings c error) decision]) := by
    have hmarks : Act.Marks settings.call c.number (acts ++ heard) c.attempt.written := by
      cases hf with
      | heard he hr => exact h.marks_ends hp hs he hr
      | timedOut hl => simpa using h.marks hp hs
    rw [journal_append]
    refine ⟨journal_of_forall fun before a ha => ?_, ?_⟩
    · cases hf with
      | heard he hr =>
        obtain rfl := List.mem_singleton.1 ha
        trivial
      | timedOut hl => cases ha
    · simp only [journal_cons, journal_nil, and_true, List.append_nil]
      exact ⟨trivial, acts ++ heard, c.number, c.node, by simp [Pose.reportOn], hmarks⟩
  cases hmove with
  | @fails c error heard lore decision hs hf hd hne => exact reported decision hs hf
  | @ignores c error heard lore hs hf hd =>
    have := reported .ignore hs hf
    simp_all [journal_append, Act.Reckoned]
  | exhausted | takes | refused | begins | waits | sends | succeeds =>
    refine journal_of_forall fun before a ha => ?_
    simp at ha
    grind [Act.Reckoned]

end Trail

namespace Execution

variable {ω : Type} {env : Environment ω} {settings : Settings} {speculation : Option Speculation}
  {x : Execution} {acts : List Act}

/-- **What the written mark means.** At every point of every attempt, whatever ends it, the mark
holds exactly if a request other than a preparation was acknowledged and not refused as unprepared,
or if the attempt is overcounted, and never for both reasons. Every report to a retry session gives
the mark of the attempt that failed right before. -/
theorem Arises.marked (h : Arises env settings speculation x acts) :
    (∀ f ∈ x.fibers, ∀ c, f.phase = .attempting c →
      Act.Marks settings.call c.number acts c.attempt.written ∧
      ∀ signal a result, c.attempt.expects signal = true →
        c.attempt.react signal = .ends a result →
        Act.Marks settings.call c.number (acts ++ [.heard c.number c.attempt.stage signal])
          a.written) ∧
    ∀ before i report decision after, acts = before ++ .reported i report decision :: after →
      ∃ earlier n node, before = earlier ++ [.failed n i node report.error] ∧
        Act.Marks settings.call n earlier report.written := by
  obtain ⟨since, h⟩ := h.unfolds
  have htrail := h.trail
  refine ⟨fun f hf c hc => ?_, fun before i report decision after hacts => ?_⟩
  · obtain ⟨i, hi⟩ := List.mem_iff_getElem?.1 hf
    have hp : (x.fibers.map Fiber.pose)[i]? = some f.pose := by simp [hi]
    have hstance := Fiber.pose_stance_attempting hc
    refine ⟨htrail.marks hp hstance, fun signal a result he hr => ?_⟩
    obtain rfl := Attempt.react_ends hr
    exact htrail.marks_ends hp hstance he hr
  · exact htrail.journal_reckoned before _ after hacts

/-- A node breaks the connection while it prepares the statement again, and nothing counts as
written; the next node acknowledges the statement and then lets its time run out. -/
theorem Arises.marked_after_broken_reprepare :
    let a := Node.sample "10.0.0.1" 0
    let b := Node.sample "10.0.0.2" 1
    let call : Call := .execute [7] "UPDATE t SET n = 1" .none .unpaged none
    let refusal : Response := ⟨.error (.unprepared [7]) "unknown", .none⟩
    let lost : AttemptError := .connectionBroken .closed
    let broken : List Act := [.opened 0, .consulted (.pick (some a)), .took 0 a,
      .began 0 0 a ⟨.pool 0, a.address⟩,
      .issued 0 .first ⟨.pool 0, a.address⟩ (call.request .localQuorum),
      .heard 0 .first .acknowledged, .heard 0 .first (.delivered (.ok refusal)),
      .issued 0 .reprepare ⟨.pool 0, a.address⟩ (.prepare "UPDATE t SET n = 1"),
      .heard 0 .reprepare .acknowledged, .heard 0 .reprepare (.delivered (.error .closed))]
    let asked : List Act := [.failed 0 0 a lost,
      .reported 0 ⟨lost, false, .localQuorum, false, 0⟩ (.nextNode none), .consulted .fallback,
      .took 0 b, .began 1 0 b ⟨.pool 1, b.address⟩,
      .issued 1 .first ⟨.pool 1, b.address⟩ (call.request .localQuorum),
      .heard 1 .first .acknowledged]
    ¬ Act.MayApply 0 broken ∧ Act.Marks call 0 broken false ∧
      Act.Marks call 1 (broken ++ asked) true := by
  intro a b call refusal lost broken asked
  let terms := Terms.ofCall Session.sample .standard call
  let events : List Event := [.signal 0 .first .acknowledged,
    .signal 0 .first (.delivered (.ok refusal)), .signal 0 .reprepare .acknowledged,
    .signal 0 .reprepare (.delivered (.error .closed)), .signal 1 .first .acknowledged, .expire 1]
  have hstart : Reaches terms.environment terms.settings terms.speculation _ _ :=
    .start 0 Session.sample
  obtain ⟨-, hreports⟩ := (hstart.follow 0 Session.sample events).arises.marked
  let start := Execution.start terms.environment terms.settings terms.speculation 0 Session.sample
  let late : AttemptError := .timedOut (.ofMillis 50)
  have hacts : (start.execution.follow terms.environment terms.settings 0 Session.sample start.acts
      events).2 = broken ++ asked ++
        [.failed 1 0 b late, .reported 0 ⟨late, false, .localQuorum, true, 1⟩ .stop] := by cbv
  have hfailed : Act.Marks call 0 broken false := by
    obtain ⟨earlier, n, node, hbefore, hmarks⟩ :=
      hreports (broken ++ [.failed 0 0 a lost]) 0 _ _ _ hacts
    obtain ⟨rfl, hlast⟩ := List.append_inj' hbefore rfl
    cases hlast
    exact hmarks
  have hlate : Act.Marks call 1 (broken ++ asked) true := by
    obtain ⟨earlier, n, node, hbefore, hmarks⟩ :=
      hreports (broken ++ asked ++ [.failed 1 0 b late]) 0 _ _ [] (by simpa using hacts)
    obtain ⟨rfl, hlast⟩ := List.append_inj' hbefore rfl
    cases hlast
    exact hmarks
  exact ⟨fun happlied => Bool.false_ne_true (hfailed.written_iff.2 (.inl happlied)), hfailed,
    hlate⟩

/-- The report of an attempt that is overcounted has the mark, though the statement cannot have
been applied. -/
theorem Arises.written_overcounted (h : Arises env settings speculation x acts) {n i : Nat}
    {earlier after : List Act} {node : Node} {report : Report} {decision : Decision}
    (hacts : acts =
      earlier ++ .failed n i node report.error :: .reported i report decision :: after)
    (hover : Act.Overcounted settings.call n earlier) :
    report.written = true ∧ ¬ Act.MayApply n earlier := by
  obtain ⟨since, h⟩ := h.unfolds
  obtain ⟨earlier', n', node', hbefore, hmarks⟩ := h.trail.journal_reckoned
    (earlier ++ [.failed n i node report.error]) (.reported i report decision) after
    (by simpa using hacts)
  obtain ⟨rfl, hlast⟩ := List.append_inj' hbefore rfl
  cases hlast
  exact ⟨hmarks.written_iff.2 (.inr hover), fun happlied => hmarks.apart ⟨happlied, hover⟩⟩

/-- Three idempotent calls, each refused by the node that is asked first: a preparation, a prepared
statement that is refused as unprepared twice, and a query that is refused as unprepared. None was
applied, and each refusal is reported with the mark. -/
theorem written_without_effect :
    let id : Bytes := [7]
    let refusal (error : ServerError) : Signal := .delivered (.ok ⟨.error error "refused", .none⟩)
    let prepared : Signal := .delivered (.ok ⟨.result (.prepared id), .none⟩)
    let trials : List (Call × List Event) :=
      [(.prepare "SELECT v FROM t",
          [.signal 0 .first .acknowledged, .signal 0 .first (refusal .serverError)]),
        (.execute id "SELECT v FROM t" .none .unpaged none,
          [.signal 0 .first .acknowledged, .signal 0 .first (refusal (.unprepared id)),
            .signal 0 .reprepare .acknowledged, .signal 0 .reprepare prepared,
            .signal 0 .repeated .acknowledged, .signal 0 .repeated (refusal (.unprepared id))]),
        (.query "SELECT v FROM t" .none .unpaged none,
          [.signal 0 .first .acknowledged, .signal 0 .first (refusal (.unprepared id))])]
    ∀ trial ∈ trials,
      let terms := Terms.ofCall Session.sample { StatementConfig.standard with idempotent := true }
        trial.1
      let start := Execution.start terms.environment terms.settings terms.speculation 0
        Session.sample
      ∃ earlier after node report decision,
        (start.execution.follow terms.environment terms.settings 0 Session.sample start.acts
          trial.2).2 = earlier ++ [.failed 0 0 node report.error, .reported 0 report decision] ++
            after ∧ report.written = true ∧ ¬ Act.MayApply 0 earlier := by
  intro id refusal prepared trials trial htrial terms start
  have harises := ((Reaches.start 0 Session.sample : Reaches terms.environment terms.settings
    terms.speculation _ _).follow 0 Session.sample trial.2).arises
  let acts := (start.execution.follow terms.environment terms.settings 0 Session.sample start.acts
    trial.2).2
  let report (error : ServerError) : Report :=
    ⟨.refused error "refused", true, .localQuorum, true, 0⟩
  obtain ⟨k, node, report, decision, after, hdrop, hover⟩ : ∃ k node report decision after,
      acts.drop k = [.failed 0 0 node report.error, .reported 0 report decision] ++ after ∧
        Act.Overcounted trial.1 0 (acts.take k) := by
    simp only [trials, List.mem_cons, List.not_mem_nil, or_false] at htrial
    rcases htrial with rfl | rfl | rfl
    · exact ⟨7, .sample "10.0.0.1" 0, report .serverError, .nextNode none, acts.drop 9, by cbv,
        .inl ⟨rfl, List.mem_of_getElem? (i := 5) (by cbv)⟩⟩
    · exact ⟨13, .sample "10.0.0.1" 0, report (.unprepared id), .stop, acts.drop 15, by cbv,
        .inr (.inl ⟨refusal (.unprepared id), List.mem_of_getElem? (i := 12) (by cbv), rfl⟩)⟩
    · exact ⟨7, .sample "10.0.0.1" 0, report (.unprepared id), .stop, acts.drop 9, by cbv,
        .inr (.inr ⟨rfl, refusal (.unprepared id), List.mem_of_getElem? (i := 6) (by cbv), rfl⟩)⟩
  have hacts : acts = acts.take k ++ [.failed 0 0 node report.error, .reported 0 report decision] ++
      after := by
    rw [List.append_assoc, ← hdrop, List.take_append_drop]
  exact ⟨_, _, _, _, _, hacts, harises.written_overcounted (by simpa using hacts) hover⟩

end Execution

end ClusterClient
