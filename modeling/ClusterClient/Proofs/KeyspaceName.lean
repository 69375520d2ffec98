import ClusterClient.Proofs.Exchange
import ClusterClient.Proofs.Failure
import ClusterClient.Proofs.Preparing

/-!
# Keyspace names

The name of a keyspace goes into the text of the `USE` statement that switches to it, so what is
sent depends on what may be a name. `IsKeyspaceName` says what is one and `NoKeyspaceName` why a
text is none; names are checked by exactly that (`checkKeyspaceName_cases`). No quote stands in a
name, so the statement tells the name and whether it is quoted (`useText_injective`).

`Client.Errand.switches_by_name` says what follows for every switch of the keyspace by a name,
whatever others do meanwhile.
-/

namespace ClusterClient

/-- The characters of a keyspace name: the letters, the digits and the underscore of ASCII. -/
def InKeyspaceName (c : Char) : Prop :=
  'a' ≤ c ∧ c ≤ 'z' ∨ 'A' ≤ c ∧ c ≤ 'Z' ∨ '0' ≤ c ∧ c ≤ '9' ∨ c = '_'

/-- What a keyspace may be called. -/
structure IsKeyspaceName (name : String) : Prop where
  nonempty : 1 ≤ name.length
  short : name.length ≤ 48
  characters : ∀ c ∈ name.toList, InKeyspaceName c

/-- Why a text is no keyspace name. The first character that may not stand in one goes before the
length. -/
inductive NoKeyspaceName (name : String) : BadKeyspaceName → Prop
  | empty : name = "" → NoKeyspaceName name .empty
  | illegal {before after : List Char} {c : Char} :
      name.toList = before ++ c :: after → (∀ d ∈ before, InKeyspaceName d) → ¬ InKeyspaceName c →
      NoKeyspaceName name (.illegalCharacter name c)
  | long : (∀ c ∈ name.toList, InKeyspaceName c) → 48 < name.length →
      NoKeyspaceName name (.tooLong name name.length)

theorem isKeyspaceChar_iff {c : Char} : isKeyspaceChar c = true ↔ InKeyspaceName c := by
  simp [isKeyspaceChar, InKeyspaceName, Char.isAlphanum, Char.isAlpha, Char.isUpper, Char.isLower,
    Char.isDigit, Char.le_def]
  tauto

/-- **A name is checked exactly**: what is no keyspace name is refused, for the reason it has. -/
theorem checkKeyspaceName_cases (name : String) :
    IsKeyspaceName name ∧ checkKeyspaceName name = .ok () ∨
      ¬ IsKeyspaceName name ∧ ∃ e, NoKeyspaceName name e ∧ checkKeyspaceName name = .error e := by
  unfold checkKeyspaceName
  by_cases hempty : name = ""
  · refine .inr ⟨fun h => ?_, .empty, .empty hempty, if_pos hempty⟩
    have := h.nonempty
    simp [hempty] at this
  rw [if_neg hempty]
  cases hfind : name.toList.find? (!isKeyspaceChar ·) with
  | some c =>
    obtain ⟨hc, before, after, hname, hbefore⟩ := List.find?_eq_some_iff_append.1 hfind
    have hc : ¬ InKeyspaceName c := by simpa [← isKeyspaceChar_iff] using hc
    refine .inr ⟨fun h => hc (h.characters c (by simp [hname])), _,
      .illegal hname (fun d hd => isKeyspaceChar_iff.1 ?_) hc, rfl⟩
    simpa using hbefore d hd
  | none =>
    have hall : ∀ c ∈ name.toList, InKeyspaceName c := fun c hc =>
      isKeyspaceChar_iff.1 (by simpa using List.find?_eq_none.1 hfind c hc)
    by_cases hlong : 48 < name.length
    · exact .inr ⟨fun h => absurd h.short (by omega), _, .long hall hlong, if_pos hlong⟩
    · have hpos : 1 ≤ name.length := by
        have : name.length ≠ 0 := by simpa using hempty
        omega
      exact .inl ⟨⟨hpos, by omega, hall⟩, if_neg hlong⟩

theorem not_inKeyspaceName_quote : ¬ InKeyspaceName '"' := by
  unfold InKeyspaceName
  decide

/-- The statement's keyword and the name, in quotes if upper and lower case differ in it. -/
theorem toList_useText (name : String) (caseSensitive : Bool) :
    (useText name caseSensitive).toList =
      "USE ".toList ++ if caseSensitive then '"' :: name.toList ++ ['"'] else name.toList := by
  cases caseSensitive <;> simp [useText]

/-- The statement that switches to a keyspace tells its name and whether it is quoted: a quote does
not stand in a name. -/
theorem useText_injective {name other : String} (hname : IsKeyspaceName name)
    (hother : IsKeyspaceName other) {caseSensitive flag : Bool}
    (h : useText other flag = useText name caseSensitive) :
    other = name ∧ flag = caseSensitive := by
  have hlist := congrArg String.toList h
  rw [toList_useText, toList_useText, List.append_cancel_left_eq] at hlist
  have unquoted {quoted plain : List Char} (hplain : ∀ c ∈ plain, InKeyspaceName c) :
      '"' :: quoted ++ ['"'] ≠ plain := by
    rintro rfl
    exact not_inKeyspaceName_quote (hplain _ List.mem_cons_self)
  cases flag <;> cases caseSensitive
  · exact ⟨String.toList_inj.1 hlist, rfl⟩
  · exact absurd hlist.symm (unquoted hother.characters)
  · exact absurd hlist (unquoted hname.characters)
  · exact ⟨String.toList_inj.1 (List.append_cancel_right (List.cons.inj hlist).2), rfl⟩

namespace Execution

/-- An execution launches its first fiber whatever comes. -/
theorem Reaches.opened {ω : Type} {env : Environment ω} {settings : Settings}
    {speculation : Option Speculation} {x : Execution} {acts : List Act}
    (h : Reaches env settings speculation x acts) : .opened 0 ∈ acts := by
  induction h with
  | start now w => simp [Execution.start, openFiber, initial, Fiber.fresh]
  | step now w event _ ih => exact List.mem_append_left _ ih

/-- A switch of the keyspace succeeds exactly with an answer that switches it. -/
theorem keyspaceResult_eq_ok {r : Except ExecutionError (Answer × ExecutionInfo)} :
    keyspaceResult r = .ok () ↔ ∃ answer info k, r = .ok (answer, info) ∧
      answer.body = .setKeyspace k := by
  rcases r with e | ⟨answer, info⟩
  · simp [keyspaceResult]
  · cases hbody : answer.body <;> simp [keyspaceResult, ResultBody.keyspace?, hbody]

/-- A query is asked in its own words, by every attempt. -/
theorem Exchange.request_eq {text : String} {values : BoundValues} {pageSize : PageSize}
    {state : Option Bytes} {base : Consistency} {acts : List Act}
    (h : Exchange (.query text values pageSize state) base acts) {n : Nat} {stage : Stage}
    {connection : Connection} {request : Request}
    (hmem : .issued n stage connection request ∈ acts) :
    ∃ consistency, request = .query text ⟨consistency, values, pageSize, state⟩ := by
  obtain ⟨before, after, hacts⟩ := List.append_of_mem hmem
  have hworded := h.worded before _ after hacts
  cases stage with
  | first =>
    obtain ⟨_, _, _, -, hrequest⟩ := hworded
    exact ⟨_, hrequest⟩
  | reprepare =>
    obtain ⟨_, _, _, _, _, -, -, hid, -⟩ := hworded
    cases hid
  | repeated =>
    obtain ⟨_, _, _, _, _, -, -, hid, -⟩ := hworded
    cases hid

end Execution

namespace Client

variable {n : Nat} {name : String} {caseSensitive : Bool} {strides : List Stride}
  {hs : List Happening}

/-- A name that is refused has that for an outcome, and nothing happens besides. -/
theorem Errand.refused (h : Errand n (.useKeyspace name caseSensitive) strides hs)
    {e : BadKeyspaceName} (hname : checkKeyspaceName name = .error e) :
    strides.flatMap Stride.notices = [.finished n (.keyspaceUsed (.error (.badName e)))] ∧
      ∀ s ∈ strides, s.after = s.before := by
  induction h with
  | start c now hc =>
    have hbegin : c.begin now n (.useKeyspace name caseSensitive) =
        (c, [.finished n (.keyspaceUsed (.error (.badName e)))]) := by
      simp [begin, hname]
    rw [hbegin]
    exact ⟨rfl, by simp⟩
  | step c now happening h hlast hc ih =>
    obtain ⟨hnotices, hsame⟩ := ih
    have hnone := hc.trans ((h.quiet_of_badName hname).1 _ hlast)
    rw [step_none hnone]
    exact ⟨by simpa using hnotices, List.forall_mem_append.2 ⟨hsame, by simp⟩⟩

/-- A request that is handed to a connection is one an attempt issued. -/
theorem Course.issued_act {purpose : Purpose} {terms : Terms} {x : Execution}
    (h : Course n purpose terms strides x) {ticket : Ticket} {connection : Connection}
    {request : Request}
    (hmem : .issued ticket connection request ∈ strides.flatMap Stride.notices) :
    ∃ m stage, .issued m stage connection request ∈ strides.flatMap Stride.acts := by
  obtain hacts | ⟨act, hpool⟩ | ⟨outcome, hfinished⟩ := h.notice_cases hmem
  · obtain ⟨act, hact, hnotice⟩ := List.mem_flatMap.1 hacts
    cases act with
    | issued m stage connection' request' =>
      simp only [issued, List.mem_cons, reduceCtorEq, Notice.issued.injEq, List.not_mem_nil,
        or_false, false_or] at hnotice
      obtain ⟨-, rfl, rfl⟩ := hnotice
      exact ⟨m, stage, hact⟩
    | _ => simp [issued] at hnotice
  · cases hpool
  · cases hfinished

/-- **A session switches to keyspaces by their names and sends nothing else.** Exactly with a name
of one to 48 ASCII letters, digits and underscores an execution begins. Any other text is refused
for the reason it has, and nothing is written or changed. What is written for a name is its `USE`
statement, without values and unpaged, from which the name and whether it is quoted can be told; and
the operation succeeds exactly if the execution is answered with a switch of the keyspace. -/
theorem Errand.switches_by_name (h : Errand n (.useKeyspace name caseSensitive) strides hs) :
    let acts := strides.flatMap Stride.acts
    let notices := strides.flatMap Stride.notices
    (.opened 0 ∈ acts ↔ IsKeyspaceName name) ∧
    (¬ IsKeyspaceName name → (∃ e, NoKeyspaceName name e ∧
        notices = [.finished n (.keyspaceUsed (.error (.badName e)))]) ∧
      ∀ s ∈ strides, s.after = s.before) ∧
    (IsKeyspaceName name →
      (∀ ticket connection request, .issued ticket connection request ∈ notices →
        ∃ consistency, request = .query
          (if caseSensitive then "USE \"" ++ name ++ "\"" else "USE " ++ name)
          ⟨consistency, .none, .unpaged, none⟩) ∧
      (∀ other flag, IsKeyspaceName other → useText other flag = useText name caseSensitive →
        other = name ∧ flag = caseSensitive) ∧
      ∃ terms x, Course n .keyspace terms strides x ∧
        (∀ r, x.result? = some r →
          .finished n (.keyspaceUsed (Execution.keyspaceResult r)) ∈ notices) ∧
        (.finished n (.keyspaceUsed (.ok ())) ∈ notices ↔ ∃ answer info k,
          x.result? = some (.ok (answer, info)) ∧ answer.body = .setKeyspace k)) := by
  intro acts notices
  obtain ⟨hname, hcheck⟩ | ⟨hname, e, he, hcheck⟩ := checkKeyspaceName_cases name
  · have hcall : (Operation.useKeyspace name caseSensitive).call? =
        some (.standard, .query (useText name caseSensitive) .none .unpaged none, .keyspace) := by
      simp [Operation.call?, hcheck]
    obtain ⟨first, hfirst⟩ := h.exists_head
    obtain ⟨x, hcourse⟩ := h.course_of_head hcall hfirst
    have hreaches := hcourse.law.reaches
    refine ⟨iff_of_true hreaches.opened hname, fun hno => absurd hname hno, fun _ =>
      ⟨fun ticket connection request hissued => ?_,
        fun other flag hother htext => useText_injective hname hother htext,
        _, x, hcourse, fun r hr => hcourse.law.finished r hr, fun hfinished => ?_, ?_⟩⟩
    · obtain ⟨m, stage, hact⟩ := hcourse.issued_act hissued
      exact hreaches.arises.exchange.request_eq hact
    · obtain ⟨r, hr, houtcome⟩ := hcourse.result_of_finished hfinished
      obtain ⟨answer, info, k, rfl, hbody⟩ :=
        Execution.keyspaceResult_eq_ok.1 (Outcome.keyspaceUsed.inj houtcome).symm
      exact ⟨answer, info, k, hr, hbody⟩
    · rintro ⟨answer, info, k, hr, hbody⟩
      have hok := Execution.keyspaceResult_eq_ok.2 ⟨answer, info, k, rfl, hbody⟩
      rw [← hok]
      exact hcourse.law.finished _ hr
  · obtain ⟨hnotices, hsame⟩ := h.refused hcheck
    refine ⟨iff_of_false (fun hopened => ?_) hname, fun _ => ⟨⟨e, he, hnotices⟩, hsame⟩,
      fun hyes => absurd hyes hname⟩
    obtain ⟨s, hs, hact⟩ := List.mem_flatMap.1 hopened
    obtain ⟨notice, hnotice, hact⟩ := List.mem_filterMap.1 hact
    have hmem : notice ∈ strides.flatMap Stride.notices := List.mem_flatMap.2 ⟨s, hs, hnotice⟩
    rw [hnotices, List.mem_singleton] at hmem
    subst hmem
    cases hact

/-- A quoted name is switched to. Of a name that is too long and has a letter of no keyspace name in
it, that letter is the complaint. -/
theorem Errand.switches_by_name_quoted :
    let long := "naïve_name_of_many_more_than_forty_eight_characters_"
    (∃ (strides : List Stride) (hs : List Happening),
      Errand 0 (.useKeyspace "Ks_1" true) strides hs ∧
      (∃ ticket connection request,
        .issued ticket connection request ∈ strides.flatMap Stride.notices) ∧
      (∀ ticket connection request,
        .issued ticket connection request ∈ strides.flatMap Stride.notices → ∃ consistency,
          request = .query "USE \"Ks_1\"" ⟨consistency, .none, .unpaged, none⟩) ∧
      .finished 0 (.keyspaceUsed (.ok ())) ∈ strides.flatMap Stride.notices) ∧
    ∃ (strides : List Stride) (hs : List Happening),
      Errand 0 (.useKeyspace long false) strides hs ∧ 48 < long.length ∧
      NoKeyspaceName long (.illegalCharacter long 'ï') ∧
      strides.flatMap Stride.notices =
        [.finished 0 (.keyspaceUsed (.error (.badName (.illegalCharacter long 'ï'))))] := by
  intro long
  have hlength : 48 < long.length := by decide +kernel
  have hcheck : checkKeyspaceName long = .error (.illegalCharacter long 'ï') := by
    decide +kernel
  let switch : Signal := .delivered (.ok ⟨.result (.setKeyspace "Ks_1"), .none⟩)
  have h₀ := Errand.of_start (fresh .sample) 0 (.useKeyspace "Ks_1" true) rfl
  have h₁ := h₀.next id (fun _ => rfl) 1 (.signal (.attempt 0 .first) .acknowledged)
  have h₂ := h₁.next id (fun _ => rfl) 2 (.signal (.attempt 0 .first) switch)
  have hlong := Errand.of_start (fresh .sample) 0 (.useKeyspace long false) rfl
  have hname : IsKeyspaceName "Ks_1" := by
    obtain ⟨h, -⟩ | ⟨-, e, -, hrefused⟩ := checkKeyspaceName_cases "Ks_1"
    · exact h
    · cases (show checkKeyspaceName "Ks_1" = .ok () by decide).symm.trans hrefused
  obtain ⟨-, -, hswitches⟩ := h₂.switches_by_name
  obtain ⟨hwritten, -⟩ := hswitches hname
  obtain ⟨-, hrefuses, -⟩ := hlong.switches_by_name
  obtain ⟨⟨e, he, hnotices⟩, -⟩ := hrefuses fun h => absurd h.short (Nat.not_le_of_lt hlength)
  obtain rfl : e = .illegalCharacter long 'ï' := by
    simpa using hnotices.symm.trans (hlong.refused hcheck).1
  exact ⟨⟨_, _, h₂, ⟨_, _, _, List.mem_of_getElem? (i := 5) (by cbv)⟩, hwritten,
    List.mem_of_getLast? (by cbv)⟩, _, _, hlong, hlength, he, hnotices⟩

end Client

end ClusterClient
