/-
**Which texts are published as answers.**

The answer of a turn reaches the client in an event and the database in a row of `agent_runs`.  It
comes by one of two routes.  The text of an `item/completed` is kept for its turn unless the item is
a commentary; and a `turn/completed` may carry the items of the turn, of which the last message of
the agent is taken, whatever its phase.  So a commentary that stands last among the items of a turn
is published.  Where that does not happen, every answer is the text of a message that is no
commentary, over any sequence of deeds of the bridge.

Main definitions:

* `FinalText` — a text of a message of the agent that is no commentary, cut as texts are;
* `OnlyFinal` — the events and the rows hold such texts only;
* `endsFinal` — the last message in the items of a known thread's turn is no commentary.

Main results:

* `finals_after` — a deed that ends with a final message keeps the answers final;
* `only_final_published` — **if every turn ends with a final message, only final texts are
  published**.
-/

import QuantFlow.BridgeRuns

namespace QuantFlow

open Py (Json Key Str Fields)

/-! ### Items -/

def isAgentMessage (item : Fields) : Bool := isText (Fields.get item "type") "agentMessage"

def isCommentary (item : Fields) : Bool := isText (Fields.get item "phase") "commentary"

/-- A value that could be read, as a list. -/
def readable {α : Type} : Except PyError α → List α
  | .ok x => [x]
  | .error _ => []

/-- The items that a notification shows: the one of an `item/completed`, or those of the turn of a
`turn/completed`. -/
def itemsOf (message : Fields) : List Fields :=
  (readable (asFields (Fields.get message "params"))).flatMap fun params =>
    if isText (Fields.get message "method") "item/completed" then
      readable (asFields (Fields.get params "item"))
    else if isText (Fields.get message "method") "turn/completed" then
      (readable (asFields (Fields.get params "turn"))).flatMap fun turn =>
        (readable (asItems (Fields.get turn "items"))).flatten
    else []

theorem itemsOf_item {message params item : Fields}
    (hmethod : isText (Fields.get message "method") "item/completed" = true)
    (hparams : asFields (Fields.get message "params") = .ok params)
    (hitem : asFields (Fields.get params "item") = .ok item) : itemsOf message = [item] := by
  simp [itemsOf, readable, hmethod, hparams, hitem]

theorem itemsOf_turn {message params turn : Fields} {items : List Fields}
    (hmethod : isText (Fields.get message "method") "turn/completed" = true)
    (hparams : asFields (Fields.get message "params") = .ok params)
    (hturn : asFields (Fields.get params "turn") = .ok turn)
    (hitems : asItems (Fields.get turn "items") = .ok items) : itemsOf message = items := by
  have hnot := isText_of_ne (t := "item/completed") hmethod (by decide)
  simp [itemsOf, readable, hmethod, hnot, hparams, hturn, hitems]

/-! ### Final texts -/

/-- The text of an agent's message that is no commentary, among the items shown so far. -/
def FinalText (deeds : List Deed) (text : Sliced) : Prop :=
  ∃ message accepts, Deed.notify message accepts ∈ deeds ∧
    ∃ item ∈ itemsOf message, isAgentMessage item = true ∧ isCommentary item = false ∧
      cut (textOr item "text") = .ok text

/-- What may be published: nothing, or a final text. -/
def Publishable (deeds : List Deed) (answer : Sliced) : Prop :=
  answer = .text [] ∨ FinalText deeds answer

/-- **Only final texts are published**: the answer in an event, and in a row that was added, is
empty or a final text.  A row of a tool call has no answer. -/
structure OnlyFinal (deeds : List Deed) (old : List AgentRun) (b : Bridge) : Prop where
  events : ∀ thread, ∀ e ∈ b.session.events thread, ∀ turnId status answer,
    e.body = .turnCompleted turnId status answer → Publishable deeds answer
  rows : ∀ row ∈ b.runs, row ∈ old ∨ row.finalResult = .null ∨
    ∃ answer, row.finalResult = answer.toJson ∧ Publishable deeds answer

theorem FinalText.append {deeds : List Deed} {text : Sliced} (h : FinalText deeds text) (d : Deed) :
    FinalText (deeds ++ [d]) text := by
  obtain ⟨message, accepts, hmem, hitem⟩ := h
  exact ⟨message, accepts, List.mem_append_left _ hmem, hitem⟩

theorem Publishable.append {deeds : List Deed} {answer : Sliced} (h : Publishable deeds answer)
    (d : Deed) : Publishable (deeds ++ [d]) answer := by
  rcases h with hempty | hfinal
  · exact .inl hempty
  · exact .inr (hfinal.append d)

@[simp] theorem Sliced.cut_cut (x : Sliced) : x.cut.cut = x.cut := by
  cases x with
  | text s => simp [Sliced.cut]
  | list elems => simp [Sliced.cut]

theorem cut_of_cut_eq {x : Json} {y : Sliced} (h : QuantFlow.cut x = .ok y) : y.cut = y := by
  cases x with
  | str s | arr elems =>
    cases h
    exact Sliced.cut_cut _
  | _ => cases h

theorem FinalText.cut_eq {deeds : List Deed} {text : Sliced} (h : FinalText deeds text) :
    text.cut = text := by
  obtain ⟨message, accepts, -, item, -, -, -, hcut⟩ := h
  exact cut_of_cut_eq hcut

/-! ### Turns that end with a final message -/

/-- In the `turn/completed` of a known thread, the last message of the agent among the items is no
commentary. -/
def endsFinal (threads : List Key) (message : Fields) : Bool :=
  (readable (asFields (Fields.get message "params"))).all fun params =>
    !(isText (Fields.get message "method") "turn/completed") ||
      !((Fields.get params "threadId").hash.any fun thread => decide (thread ∈ threads)) ||
        ((itemsOf message).filter isAgentMessage).getLast?.all fun item => !isCommentary item

/-- The condition on a deed. -/
def endsFinalDeed (b : Bridge) : Deed → Bool
  | .notify message _ => endsFinal b.session.threads message
  | _ => true

theorem endsFinal_eq {threads : List Key} {message params : Fields} {thread : Key}
    (hmethod : isText (Fields.get message "method") "turn/completed" = true)
    (hparams : asFields (Fields.get message "params") = .ok params)
    (hthread : (Fields.get params "threadId").hash = some thread) (hknown : thread ∈ threads)
    (h : endsFinal threads message = true) {item : Fields}
    (hlast : ((itemsOf message).filter isAgentMessage).getLast? = some item) :
    isCommentary item = false := by
  simpa [endsFinal, readable, hparams, hmethod, hthread, hknown, hlast] using h

/-! ### One deed -/

/-- The messages that are kept are final, and so is what was published. -/
structure Finals (deeds : List Deed) (old : List AgentRun) (b : Bridge) : Prop where
  kept : ∀ p ∈ b.session.finalMessages, FinalText deeds p.2
  published : OnlyFinal deeds old b

/-- Every event is an old one or one that was just published. -/
theorem Emits.mem_events {s : Session} {thread : Key} {bodies : List EventBody} {t : Session}
    (h : Emits s thread bodies t) {k : Key} {e : Event} (he : e ∈ t.events k) :
    e ∈ s.events k ∨ e.body ∈ bodies := by
  induction h with
  | refl => exact .inl he
  | frame h hthreads hevents hnumber ih =>
    rw [hevents] at he
    exact ih he
  | emit h body ih =>
    unfold Session.emit at he
    split at he
    · simp only [Function.update_apply] at he
      split at he
      · rename_i hk
        rcases List.mem_append.1 (List.mem_of_mem_drop he) with hold | hnew
        · rcases ih (hk ▸ hold) with hs | hbodies
          · exact .inl hs
          · exact .inr (List.mem_append_left _ hbodies)
        · rw [List.mem_singleton.1 hnew]
          exact .inr (List.mem_append_right _ (List.mem_singleton.2 rfl))
      · rcases ih he with hs | hbodies
        · exact .inl hs
        · exact .inr (List.mem_append_left _ hbodies)
    · rcases ih he with hs | hbodies
      · exact .inl hs
      · exact .inr (List.mem_append_left _ hbodies)

/-- A deed whose new events and rows have publishable answers, and whose kept messages are final. -/
theorem Finals.step {deeds : List Deed} {old : List AgentRun} {b b' : Bridge}
    (h : Finals deeds old b) (d : Deed)
    (hkept : ∀ p ∈ b'.session.finalMessages, p ∈ b.session.finalMessages ∨
      FinalText (deeds ++ [d]) p.2)
    (hevents : ∀ k, ∀ e ∈ b'.session.events k, e ∈ b.session.events k ∨
      ∀ turnId status answer, e.body = .turnCompleted turnId status answer →
        Publishable (deeds ++ [d]) answer)
    (hrows : ∀ row ∈ b'.runs, row ∈ b.runs ∨ row.finalResult = .null ∨
      ∃ answer, row.finalResult = answer.toJson ∧ Publishable (deeds ++ [d]) answer) :
    Finals (deeds ++ [d]) old b' := by
  refine ⟨?_, ?_, ?_⟩
  · intro p hp
    rcases hkept p hp with hold | hnew
    · exact (h.kept p hold).append d
    · exact hnew
  · intro k e he turnId status answer hbody
    rcases hevents k e he with hold | hnew
    · exact (h.published.events k e hold turnId status answer hbody).append d
    · exact hnew turnId status answer hbody
  · intro row hrow
    rcases hrows row hrow with hold | hnull | hanswer
    · rcases h.published.rows row hold with hbefore | hnull | ⟨answer, heq, hpublishable⟩
      · exact .inl hbefore
      · exact .inr (.inl hnull)
      · exact .inr (.inr ⟨answer, heq, hpublishable.append d⟩)
    · exact .inr (.inl hnull)
    · exact .inr (.inr hanswer)

/-- The events of a deed that emits none but publishable answers. -/
theorem Emits.publishable {s : Session} {thread : Key} {bodies : List EventBody} {t : Session}
    {deeds : List Deed} (h : Emits s thread bodies t)
    (hbodies : ∀ turnId status answer, .turnCompleted turnId status answer ∈ bodies →
      Publishable deeds answer) (k : Key) (e : Event) (he : e ∈ t.events k) :
    e ∈ s.events k ∨ ∀ turnId status answer, e.body = .turnCompleted turnId status answer →
      Publishable deeds answer := by
  rcases h.mem_events he with hold | hnew
  · exact .inl hold
  · right
    intro turnId status answer hbody
    exact hbodies turnId status answer (hbody ▸ hnew)

theorem finalText_of_messageOf {message params : Fields} {turn : Key} {text : Sliced}
    (accepts : Bool) (deeds : List Deed)
    (hmethod : isText (Fields.get message "method") "item/completed" = true)
    (hparams : asFields (Fields.get message "params") = .ok params)
    (hmessage : messageOf params = .ok (some (turn, text))) :
    FinalText (deeds ++ [.notify message accepts]) text := by
  unfold messageOf at hmessage
  obtain ⟨item, hitem, hmessage⟩ := except_bind_eq_ok.1 hmessage
  split at hmessage
  · rename_i hkind
    obtain ⟨hagent, hphase⟩ := Bool.and_eq_true_iff.1 hkind
    obtain ⟨text', htext, hmessage⟩ := except_bind_eq_ok.1 hmessage
    obtain ⟨turn', hturn, hmessage⟩ := except_bind_eq_ok.1 hmessage
    cases hmessage
    refine ⟨message, accepts, by simp, item, ?_, hagent, by simpa [isCommentary] using hphase, htext⟩
    rw [itemsOf_item hmethod hparams hitem]
    exact List.mem_singleton.2 rfl
  · cases hmessage

/-- The answer of a turn that ends with a final message is publishable. -/
theorem publishable_of_readTurn {deeds : List Deed} {s : Session} {message params turn : Fields}
    {thread : Key} {answer : Sliced} (accepts : Bool)
    (hkept : ∀ p ∈ s.finalMessages, FinalText deeds p.2)
    (hmethod : isText (Fields.get message "method") "turn/completed" = true)
    (hparams : asFields (Fields.get message "params") = .ok params)
    (hthread : (Fields.get params "threadId").hash = some thread) (hknown : thread ∈ s.threads)
    (hends : endsFinal s.threads message = true) (hread : readTurn params s = .ok (turn, answer)) :
    Publishable (deeds ++ [.notify message accepts]) answer := by
  obtain ⟨hturn, items, hitems, hanswer⟩ := steps_of_readTurn hread
  have hshown := itemsOf_turn hmethod hparams hturn hitems
  unfold answerOf at hanswer
  split at hanswer
  · -- the last message among the items, which is no commentary
    rename_i text hlast
    rw [answersOf, List.getLast?_map, Option.map_eq_some_iff] at hlast
    obtain ⟨item, hitem, rfl⟩ := hlast
    obtain ⟨hmem, hagent⟩ := List.mem_filter.1 (List.mem_of_getLast? hitem)
    have hphase : isCommentary item = false := by
      refine endsFinal_eq hmethod hparams hthread hknown hends ?_
      rw [hshown]
      exact hitem
    refine .inr ⟨message, accepts, by simp, item, ?_, hagent, hphase, hanswer⟩
    rw [hshown]
    exact hmem
  · -- the message kept for the turn, if there is one
    obtain ⟨k, -, hanswer⟩ := except_bind_eq_ok.1 hanswer
    cases hanswer
    cases hlookup : s.finalMessages.lookup k with
    | none => exact .inl rfl
    | some text =>
      obtain ⟨earlier, later, hsplit, -⟩ := List.lookup_eq_some_iff.1 hlookup
      have hfinal : FinalText deeds text := hkept (k, text) (by simp [hsplit])
      rw [Option.getD_some, hfinal.cut_eq]
      exact .inr (hfinal.append _)

/-- A completed turn shows its answer, or an empty text when it could not be audited. -/
theorem publishable_turnEvents {deeds : List Deed} {turn : Fields} {answer : Sliced} {audited : Bool}
    (hanswer : Publishable deeds answer) {turnId status : Json} {shown : Sliced}
    (hmem : .turnCompleted turnId status shown ∈ turnEvents turn answer audited) :
    Publishable deeds shown := by
  unfold turnEvents at hmem
  split at hmem
  · cases List.mem_singleton.1 hmem
    exact hanswer
  · simp only [List.mem_cons, List.not_mem_nil, or_false, reduceCtorEq, false_or,
      EventBody.turnCompleted.injEq] at hmem
    exact .inl hmem.2.2

theorem finalResult_of_mem_row {thread turnKey : Key} {threadId : Json} {turn : Fields}
    {answer : Sliced} {accepts : Bool} {s : Session} {row : AgentRun}
    (hrow : row ∈ (finishTurn thread turnKey threadId turn answer accepts s).row.toList) :
    row.finalResult = answer.toJson := by
  rw [row_finishTurn] at hrow
  split at hrow
  · rw [List.mem_singleton.1 hrow]
    rfl
  · cases hrow

/-- What a notification adds is final, if the turn it completes ends with a final message. -/
theorem finals_notify {deeds : List Deed} {old : List AgentRun} {b : Bridge} {message : Fields}
    {accepts : Bool} (host : Host) (h : Finals deeds old b)
    (hends : endsFinal b.session.threads message = true) :
    Finals (deeds ++ [.notify message accepts]) old (b.after host (.notify message accepts)) := by
  have hnoted := notedBy_recordNotification message accepts b.session
  simp only [Bridge.after]
  generalize recordNotification message accepts b.session = noted at hnoted ⊢
  cases hnoted with
  | ignored raised =>
    refine h.step _ (fun p hp => .inl hp) (fun k e he => .inl he) ?_
    intro row hrow
    exact .inl (by simpa using hrow)
  | kept params turn text hmethod hparams hmessage =>
    refine h.step _ ?_ (fun k e he => .inl he) ?_
    · intro p hp
      rcases List.mem_append.1 hp with hold | hnew
      · exact .inl (List.mem_filter.1 hold).1
      · rw [List.mem_singleton.1 hnew]
        exact .inr (finalText_of_messageOf accepts deeds hmethod hparams hmessage)
    · intro row hrow
      exact .inl (by simpa using hrow)
  | finished params thread turn answer turnKey hmethod hparams hthread hknown hread hkey =>
    have hanswer := publishable_of_readTurn accepts h.kept hmethod hparams hthread hknown hends
      hread
    refine h.step _ ?_ ((emits_finishTurn _ _ _ _ _ _ _).publishable ?_) ?_
    · intro p hp
      rw [finalMessages_finishTurn] at hp
      exact .inl (List.mem_filter.1 hp).1
    · intro turnId status shown hmem
      exact publishable_turnEvents hanswer hmem
    · intro row hrow
      rcases List.mem_append.1 hrow with hold | hnew
      · exact .inl hold
      · exact .inr (.inr ⟨answer, finalResult_of_mem_row hnew, hanswer⟩)
  | unhashed params thread turn answer hmethod hparams hthread hknown hread hkey =>
    have hrows : ∀ row ∈ b.runs ++ ([] : List AgentRun), row ∈ b.runs ∨ row.finalResult = .null ∨
        ∃ shown, row.finalResult = shown.toJson ∧
          Publishable (deeds ++ [.notify message accepts]) shown := by
      intro row hrow
      exact .inl (by simpa using hrow)
    simp only
    split
    · rename_i hnone
      refine h.step _ ?_ ((Emits.refl.emit _).publishable (by simp)) hrows
      intro p hp
      rw [finalMessages_emit] at hp
      exact .inl hp
    · exact h.step _ (fun p hp => .inl hp) (fun k e he => .inl he) hrows

theorem finals_request {deeds : List Deed} {old : List AgentRun} {b : Bridge} {env : BridgeEnv}
    {before : Session} {message : Fields} (host : Host) (h : Finals deeds old b) :
    Finals (deeds ++ [.request env before message]) old
      (b.after host (.request env before message)) := by
  have hby := requestBy_handleServerRequest host env before message b
  simp only [Bridge.after]
  generalize (handleServerRequest host env before message b).2 = b' at hby ⊢
  cases hby with
  | refused =>
    exact h.step _ (fun p hp => .inl hp) (fun k e he => .inl he) fun row hrow => .inl hrow
  | called params thread hmethod hparams hthread hknown =>
    refine h.step _ ?_ ((emits_toolDone _ _ _ _ _).publishable (by simp)) ?_
    · intro p hp
      rw [session_toolCall, finalMessages_toolDone] at hp
      exact .inl hp
    · intro row hrow
      simp only [toolCall] at hrow
      split at hrow
      · rcases List.mem_append.1 hrow with hold | hnew
        · exact .inl hold
        · rw [List.mem_singleton.1 hnew]
          exact .inr (.inl rfl)
      · exact .inl hrow

theorem finalMessages_addThread (s : Session) (id : Json) :
    (s.addThread id).finalMessages = s.finalMessages := by
  rcases addThread_cases s id with hsame | ⟨k, named, -, hadded⟩
  · rw [hsame]
  · rw [hadded]

theorem events_addThread (s : Session) (id : Json) : (s.addThread id).events = s.events := by
  rcases addThread_cases s id with hsame | ⟨k, named, -, hadded⟩
  · rw [hsame]
  · rw [hadded]

/-- **A deed that ends with a final message keeps the answers final.** -/
theorem finals_after {deeds : List Deed} {old : List AgentRun} {b : Bridge} (host : Host) (d : Deed)
    (h : Finals deeds old b) (hends : endsFinalDeed b d = true) :
    Finals (deeds ++ [d]) old (b.after host d) := by
  cases d with
  | notify message accepts => exact finals_notify host h hends
  | request env before message => exact finals_request host h
  | register id =>
    refine h.step _ ?_ ?_ fun row hrow => .inl hrow
    · intro p hp
      rw [Bridge.after, finalMessages_addThread] at hp
      exact .inl hp
    · intro k e he
      rw [Bridge.after, events_addThread] at he
      exact .inl he
  | restart =>
    refine h.step _ ?_ (fun k e he => .inl he) fun row hrow => .inl hrow
    intro p hp
    cases hp
  | forget => exact h.step _ (fun p hp => .inl hp) (fun k e he => .inl he) fun row hrow => .inl hrow

/-- **If every turn of a known thread ends with a final message, only final texts are published.** -/
theorem only_final_published (host : Host) (w : World) (old : List AgentRun) (deeds : List Deed)
    (b : Bridge)
    (hends : Runs.disciplined (Bridge.step host) endsFinalDeed deeds (Bridge.initial w old) = true)
    (hrun : Runs.run (Bridge.step host) deeds (Bridge.initial w old) = some b) :
    OnlyFinal deeds old b := by
  refine (Runs.history_invariant (P := fun past b => Finals past old b) ?_ deeds ?_ hends
    hrun).published
  · intro past b d b' h hd hstep
    cases hstep
    exact finals_after host d h hd
  · refine ⟨?_, ?_, fun row hrow => .inl hrow⟩
    · intro p hp
      cases hp
    · intro thread e he
      cases he

/-- A turn with a commentary and a final message, each shown when it was completed. -/
def answeredTurn : List Deed :=
  [.register (.text "t1"),
    .notify (itemMessage "t1" "a" (agentMessage (.text "commentary") (.text "hm"))) true,
    .notify (itemMessage "t1" "a" (agentMessage .null (.text "yes"))) true,
    .notify (turnMessage "t1" "a" []) true]

theorem only_final_published_answeredTurn :
    ∃ b, Runs.run (Bridge.step weekHost) answeredTurn (Bridge.initial emptyWorld []) = some b ∧
      b.runs.length = 1 ∧ OnlyFinal answeredTurn [] b := by
  have hends : Runs.disciplined (Bridge.step weekHost) endsFinalDeed answeredTurn
      (Bridge.initial emptyWorld []) = true := by
    decide +kernel
  have hend : (Runs.run (Bridge.step weekHost) answeredTurn (Bridge.initial emptyWorld [])).any
      (fun b => b.runs.length = 1) = true := by
    decide +kernel
  obtain ⟨b, hrun, hlength⟩ := (Option.any_eq_true _ _).1 hend
  exact ⟨b, hrun, of_decide_eq_true hlength,
    only_final_published weekHost emptyWorld [] answeredTurn b hends hrun⟩

/-- A turn that is completed with a commentary among its items. -/
def commentedTurn : List Deed :=
  [.register (.text "t1"),
    .notify (turnMessage "t1" "a" [agentMessage (.text "commentary") (.text "hm")]) true]

/-- The commentary is published as the answer. -/
theorem commentary_published :
    ∃ b, Runs.run (Bridge.step weekHost) commentedTurn (Bridge.initial emptyWorld []) = some b ∧
      ¬ OnlyFinal commentedTurn [] b := by
  have hend : (Runs.run (Bridge.step weekHost) commentedTurn (Bridge.initial emptyWorld [])).any
      (fun b => b.runs.any fun row => isText row.finalResult "hm") = true := by
    decide +kernel
  have hcommentary : (itemsOf (turnMessage "t1" "a"
      [agentMessage (.text "commentary") (.text "hm")])).all isCommentary = true := by
    decide +kernel
  obtain ⟨b, hrun, hrow⟩ := (Option.any_eq_true _ _).1 hend
  obtain ⟨row, hmem, htext⟩ := List.any_eq_true.1 hrow
  refine ⟨b, hrun, ?_⟩
  intro honly
  rcases honly.rows row hmem with hold | hnull | ⟨answer, heq, hempty | hfinal⟩
  · cases hold
  · rw [hnull] at htext
    cases htext
  · rw [heq, hempty] at htext
    exact absurd htext (by decide)
  · obtain ⟨message, accepts, hdeed, item, hitem, -, hphase, -⟩ := hfinal
    simp only [commentedTurn, List.mem_cons, List.not_mem_nil, or_false, reduceCtorEq, false_or,
      Deed.notify.injEq] at hdeed
    rw [hdeed.1] at hitem
    rw [List.all_eq_true.1 hcommentary item hitem] at hphase
    cases hphase

end QuantFlow
