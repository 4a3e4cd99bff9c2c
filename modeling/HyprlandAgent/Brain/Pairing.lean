import HyprlandAgent.Brain.OpenAI
import Mathlib.Data.List.TakeWhile

-- The calls of a chat-completions conversation and the messages that answer them.
namespace HyprlandAgent.Brain.OpenAI

abbrev ChatMessage := Message AssistantMessage Empty

def isAssistant : ChatMessage → Bool
  | .object _ => true
  | .dict .assistant _ _ => true
  | _ => false

def answersTo (id : String) : ChatMessage → Bool
  | .dict .tool _ (some callId) => callId == id
  | _ => false

-- Up to the next assistant message, one tool message answers each call.
def Paired : Conversation → Prop
  | [] => True
  | .object msg :: rest =>
    (∀ call ∈ msg.toolCalls, ((rest.takeWhile (!isAssistant ·)).countP (answersTo call.id)) = 1) ∧ Paired rest
  | .dict _ _ _ :: rest => Paired rest

variable {py : Runtime} {hasGet : Bool} {cfg : ContextConfig} {prompt : Prompt}

def Fails (py : Runtime) (call : ToolCall) : Prop :=
  (∃ text, py.loads call.arguments = .error (.other text)) ∨
    ∃ args exc, py.loads call.arguments = .ok args ∧
      callTool py call.desktop call.name args (1 / scale) = .error exc

def parses (py : Runtime) (call : ToolCall) : Bool := (py.loads call.arguments).isOk

def Single (py : Runtime) (msg : AssistantMessage) : Prop :=
  ∀ call ∈ msg.toolCalls, (msg.toolCalls.countP fun other => other.id == call.id && parses py other) = 1

-- In every response that another request follows each call is answerable.
def Answerable (py : Runtime) : Nat → List AssistantMessage → Prop
  | left + 2,msg :: later =>
    msg.toolCalls = [] ∨ (∃ call ∈ msg.toolCalls, Fails py call) ∨
      Single py msg ∧ Answerable py (left + 1) later
  | _,_ => True

section
variable {call : ToolCall} {rest : List ToolCall} {args : Json} {exc : Exc} {result : String × List Action}
  {more : List Action × Conversation}

theorem handleCalls_raised (loaded : py.loads call.arguments = .ok args)
    (called : callTool py call.desktop call.name args (1 / scale) = .error exc) :
    handleCalls py (call :: rest) = .error exc := by
  simp only [handleCalls,loaded,called]
  rfl

theorem handleCalls_stopped (loaded : py.loads call.arguments = .ok args)
    (called : callTool py call.desktop call.name args (1 / scale) = .ok result)
    (others : handleCalls py rest = .error exc) : handleCalls py (call :: rest) = .error exc := by
  simp only [handleCalls,loaded,called,others]
  rfl

theorem handleCalls_added (loaded : py.loads call.arguments = .ok args)
    (called : callTool py call.desktop call.name args (1 / scale) = .ok result)
    (others : handleCalls py rest = .ok more) : handleCalls py (call :: rest) =
      .ok (result.2 ++ more.1,toolMessage call.id result.1 :: more.2) := by
  simp only [handleCalls,loaded,called,others]
  rfl

theorem fails_loaded (loaded : py.loads call.arguments = .ok args) : Fails py call ↔
    ∃ exc, callTool py call.desktop call.name args (1 / scale) = .error exc := by
  constructor
  · intro fails
    rcases fails with ⟨text,broken⟩ | ⟨other,exc,again,broken⟩
    · rw [loaded] at broken
      cases broken
    · rw [loaded] at again
      cases again
      exact ⟨exc,broken⟩
  · intro broken
    obtain ⟨exc,raised⟩ := broken
    exact .inr ⟨args,exc,loaded,raised⟩

end

theorem handleCalls_error {calls : List ToolCall} :
    (∃ exc, handleCalls py calls = .error exc) ↔ ∃ call ∈ calls, Fails py call := by
  induction calls with
  | nil => simp [handleCalls]
  | cons call rest ih =>
    simp only [List.mem_cons,exists_eq_or_imp]
    rw [← ih]
    cases loaded : py.loads call.arguments with
    | error error =>
      cases error with
      | jsonDecode text =>
        have fine : ¬Fails py call := by simp [Fails,loaded]
        simp [handleCalls,loaded,fine]
      | other text =>
        have fails : Fails py call := .inl ⟨text,loaded⟩
        simp [handleCalls,loaded,fails]
    | ok args =>
      rw [fails_loaded loaded]
      cases called : callTool py call.desktop call.name args (1 / scale) with
      | error exc =>
        rw [handleCalls_raised loaded called]
        exact ⟨fun _ => .inl ⟨exc,rfl⟩,fun _ => ⟨exc,rfl⟩⟩
      | ok result =>
        cases others : handleCalls py rest with
        | error exc =>
          rw [handleCalls_stopped loaded called others]
          exact ⟨fun _ => .inr ⟨exc,rfl⟩,fun _ => ⟨exc,rfl⟩⟩
        | ok more =>
          rw [handleCalls_added loaded called others]
          simp only [reduceCtorEq,exists_false,or_self]

theorem handleCalls_results {calls : List ToolCall} {actions : List Action} {results : Conversation}
    (handled : handleCalls py calls = .ok (actions,results)) :
    (∀ message ∈ results, ∃ id text, message = toolMessage id text) ∧
      ∀ id, results.countP (answersTo id) = calls.countP fun other => other.id == id && parses py other := by
  induction calls generalizing actions results with
  | nil =>
    cases handled
    exact ⟨fun _ inside => absurd inside List.not_mem_nil,fun _ => rfl⟩
  | cons call rest ih =>
    cases loaded : py.loads call.arguments with
    | error error =>
      have broken : parses py call = false := by simp [parses,loaded,Except.isOk,Except.toBool]
      cases error with
      | jsonDecode text =>
        simp only [handleCalls,loaded] at handled
        obtain ⟨tools,counts⟩ := ih handled
        exact ⟨tools,fun id => by rw [counts id,List.countP_cons,broken]; simp⟩
      | other text => simp [handleCalls,loaded] at handled
    | ok args =>
      have sound : parses py call = true := by simp [parses,loaded,Except.isOk,Except.toBool]
      cases called : callTool py call.desktop call.name args (1 / scale) with
      | error exc =>
        rw [handleCalls_raised loaded called] at handled
        cases handled
      | ok result =>
        cases others : handleCalls py rest with
        | error exc =>
          rw [handleCalls_stopped loaded called others] at handled
          cases handled
        | ok more =>
          rw [handleCalls_added loaded called others] at handled
          simp only [Except.ok.injEq,Prod.mk.injEq] at handled
          obtain ⟨tools,counts⟩ := ih others
          rw [← handled.2]
          constructor
          · intro message inside
            rcases List.mem_cons.mp inside with rfl | later
            · exact ⟨call.id,_,rfl⟩
            · exact tools message later
          · intro id
            rw [List.countP_cons,List.countP_cons,counts id,sound,Bool.and_true]
            rfl

structure Answered where
  msg : AssistantMessage
  toolResults : Conversation
  tools : ∀ message ∈ toolResults, ∃ id text, message = toolMessage id text

def Answered.messages (turn : Answered) : Conversation := .object turn.msg :: turn.toolResults

def Answered.Whole (turn : Answered) : Prop :=
  ∀ call ∈ turn.msg.toolCalls, turn.toolResults.countP (answersTo call.id) = 1

theorem takeWhile_tools {results : Conversation} (tools : ∀ message ∈ results, ∃ id text, message = toolMessage id text)
    (turns : List Answered) :
    (results ++ turns.flatMap Answered.messages).takeWhile (!isAssistant ·) = results := by
  induction results with
  | nil =>
    cases turns with
    | nil => rfl
    | cons turn rest => rfl
  | cons message rest ih =>
    obtain ⟨id,text,rfl⟩ := tools _ List.mem_cons_self
    have others := ih fun later inside => tools later (List.mem_cons_of_mem _ inside)
    rw [List.cons_append,List.takeWhile_cons_of_pos rfl,others]

theorem paired_tools {results rest : Conversation} (tools : ∀ message ∈ results, ∃ id text, message = toolMessage id text) :
    Paired (results ++ rest) ↔ Paired rest := by
  induction results with
  | nil => rfl
  | cons message more ih =>
    obtain ⟨id,text,rfl⟩ := tools _ List.mem_cons_self
    exact ih fun later inside => tools later (List.mem_cons_of_mem _ inside)

theorem paired_turns (turns : List Answered) :
    Paired (turns.flatMap Answered.messages) ↔ ∀ turn ∈ turns, turn.Whole := by
  induction turns with
  | nil => simp [Paired]
  | cons turn rest ih =>
    rw [List.flatMap_cons,List.forall_mem_cons,← ih]
    show Paired (.object turn.msg :: (turn.toolResults ++ rest.flatMap Answered.messages)) ↔ _
    rw [Paired,takeWhile_tools turn.tools,paired_tools turn.tools]
    rfl

def conversation (prompt : Prompt) (turns : List Answered) : Conversation :=
  prompt.messages ++ turns.flatMap Answered.messages

theorem paired_conversation {turns : List Answered} :
    Paired (conversation prompt turns) ↔ ∀ turn ∈ turns, turn.Whole := by
  rw [← paired_turns]
  rfl

def viewOf : ChatMessage → Role × Content Empty
  | .dict role content _ => (role,content)
  | .object msg => (.assistant,match msg.content with
      | some text => .str text
      | none => .none)

theorem plain_objects (messages : Conversation) : Plain (getOf true) viewOf messages := by
  intro message _
  cases message with
  | dict role content toolCallId => rfl
  | object msg => rfl

theorem compact_conversation (turns : List Answered) :
    compactMessages (getOf true) cfg (conversation prompt turns) = .ok (conversation prompt turns) := by
  apply compact_single (plain_objects _) rfl rfl
  intro message inside
  obtain ⟨turn,_,held⟩ := List.mem_flatMap.mp inside
  rcases List.mem_cons.mp held with rfl | result
  · exact Role.noConfusion
  · obtain ⟨id,text,rfl⟩ := turn.tools message result
    exact Role.noConfusion

theorem conversation_snoc (turns : List Answered) (turn : Answered) :
    conversation prompt turns ++ .object turn.msg :: turn.toolResults = conversation prompt (turns ++ [turn]) := by
  simp [conversation,Answered.messages]

theorem whole_iff {msg : AssistantMessage} {actions : List Action} {results : Conversation}
    (handled : handleCalls py msg.toolCalls = .ok (actions,results)) :
    Answered.Whole ⟨msg,results,(handleCalls_results handled).1⟩ ↔ Single py msg := by
  simp only [Answered.Whole,Single,(handleCalls_results handled).2]

theorem loop_first (turns : List Answered) (left : Nat) (allActions : List Action)
    (responses : List AssistantMessage) : conversation prompt turns ∈
      (loop py true cfg (left + 1) (conversation prompt turns) allActions responses).requests := by
  rw [loop,compact_conversation]
  cases responses with
  | nil => exact List.mem_cons_self
  | cons msg later =>
    by_cases ended : msg.toolCalls.isEmpty = true
    · simp [ended]
    · cases handled : handleCalls py msg.toolCalls with
      | error exc => simp [handled,ended]
      | ok result => simp [handled,ended]

theorem answerable_nil (left : Nat) : Answerable py left [] := by
  rcases left with _ | _ | left <;> trivial

theorem answerable_settled {msg : AssistantMessage} (later : List AssistantMessage) (left : Nat)
    (settled : msg.toolCalls = [] ∨ ∃ call ∈ msg.toolCalls, Fails py call) :
    Answerable py left (msg :: later) := by
  rcases left with _ | _ | left
  · trivial
  · trivial
  · rcases settled with none_ | fails
    · exact .inl none_
    · exact .inr (.inl fails)

theorem whole_snoc {turns : List Answered} (whole : ∀ turn ∈ turns, turn.Whole) (last : Answered) :
    (∀ turn ∈ turns ++ [last], turn.Whole) ↔ last.Whole := by
  constructor
  · intro all
    exact all last (List.mem_append_right _ (List.mem_singleton_self last))
  · intro single turn inside
    rcases List.mem_append.mp inside with before | new
    · exact whole turn before
    · rw [List.mem_singleton.mp new]
      exact single

theorem loop_paired (left : Nat) (turns : List Answered) (whole : ∀ turn ∈ turns, turn.Whole)
    (allActions : List Action) (responses : List AssistantMessage) :
    (∀ request ∈ (loop py true cfg (left + 1) (conversation prompt turns) allActions responses).requests,
      Paired request) ↔ Answerable py (left + 1) responses := by
  induction left generalizing turns allActions responses with
  | zero =>
    have now : Paired (conversation prompt turns) := paired_conversation.mpr whole
    rw [loop,compact_conversation]
    cases responses with
    | nil => simp [Answerable,now]
    | cons msg later =>
      by_cases ended : msg.toolCalls.isEmpty = true
      · simp [ended,Answerable,now]
      · cases handled : handleCalls py msg.toolCalls <;> simp [ended,handled,Answerable,now,loop]
  | succ fewer ih =>
    have now : Paired (conversation prompt turns) := paired_conversation.mpr whole
    rw [loop,compact_conversation]
    cases responses with
    | nil => simp [answerable_nil,now]
    | cons msg later =>
      by_cases ended : msg.toolCalls = []
      · simp [ended,answerable_settled later _ (.inl ended),now]
      · have some_ : ¬msg.toolCalls.isEmpty = true := by simpa using ended
        cases handled : handleCalls py msg.toolCalls with
        | error exc =>
          have fails := handleCalls_error.mp ⟨exc,handled⟩
          simp only [if_neg some_,handled]
          simp [answerable_settled later _ (.inr fails),now]
        | ok result =>
          obtain ⟨actions,results⟩ := result
          have fine : ¬∃ call ∈ msg.toolCalls, Fails py call := by
            intro fails
            obtain ⟨exc,raised⟩ := handleCalls_error.mpr fails
            rw [handled] at raised
            cases raised
          have grown : conversation prompt turns ++ .object msg :: results =
              conversation prompt (turns ++ [⟨msg,results,(handleCalls_results handled).1⟩]) :=
            conversation_snoc turns ⟨msg,results,(handleCalls_results handled).1⟩
          simp only [if_neg some_,handled,List.forall_mem_cons,grown]
          rw [Answerable,← whole_iff handled]
          by_cases single : Answered.Whole ⟨msg,results,(handleCalls_results handled).1⟩
          · rw [ih _ ((whole_snoc whole _).mpr single)]
            simp [now,ended,fine,single]
          · -- The next request shows the call that is not answered.
            simp only [ended,fine,single,false_or,false_and,iff_false]
            intro all
            have paired := all.2 _ (loop_first _ fewer _ later)
            exact single ((whole_snoc whole _).mp (paired_conversation.mp paired))

section
variable {messages : Conversation} {msg : AssistantMessage}

theorem views_object (inside : .object msg ∈ messages) :
    ∃ exc, messages.mapM (Message.view (getOf false)) = .error exc := by
  induction messages with
  | nil => exact absurd inside List.not_mem_nil
  | cons first rest ih =>
    rw [List.mapM_cons]
    cases viewed : first.view (getOf false) with
    | error exc => exact ⟨exc,rfl⟩
    | ok view =>
      rcases List.mem_cons.mp inside with rfl | later
      · simp [Message.view,getOf] at viewed
      · obtain ⟨exc,failed⟩ := ih later
        exact ⟨exc,by simp [failed,bind,Except.bind]⟩

theorem compact_object (inside : .object msg ∈ messages) :
    ∃ exc, compactMessages (getOf false) cfg messages = .error exc := by
  obtain ⟨exc,failed⟩ := views_object inside
  exact ⟨exc,by simp [compactMessages,estimateTokens,failed,bind,Except.bind]⟩

end

theorem compact_prompt : compactMessages (getOf false) cfg prompt.messages = .ok prompt.messages := by
  have plain : Plain (getOf false) viewOf prompt.messages := by
    intro message inside
    simp only [Prompt.messages,List.mem_cons,List.not_mem_nil,or_false] at inside
    rcases inside with rfl | rfl
    · rfl
    · rfl
  exact compact_single plain rfl rfl fun _ inside => absurd inside List.not_mem_nil

theorem loop_objects (left : Nat) (responses : List AssistantMessage) :
    (loop py false cfg (left + 2) prompt.messages [] responses).requests = [prompt.messages] ∧
      ∀ actions, (loop py false cfg (left + 2) prompt.messages [] responses).outcome = .returned actions ↔
        actions = [] ∧ ∃ msg later, responses = msg :: later ∧ msg.toolCalls = [] := by
  rw [loop,compact_prompt]
  cases responses with
  | nil => simp
  | cons msg later =>
    by_cases ended : msg.toolCalls = []
    · simp [ended,eq_comm]
    · have some_ : ¬msg.toolCalls.isEmpty = true := by simpa using ended
      cases handled : handleCalls py msg.toolCalls with
      | error exc =>
        simp only [if_neg some_,handled]
        simp [ended]
      | ok result =>
        have inside : .object msg ∈ prompt.messages ++ .object msg :: result.2 :=
          List.mem_append_right _ List.mem_cons_self
        obtain ⟨exc,failed⟩ := @compact_object cfg _ _ inside
        simp only [if_neg some_,handled,loop,failed]
        simp [ended]

theorem requests_paired_iff (py : Runtime) (hasGet : Bool) (cfg : ContextConfig) (prompt : Prompt) (left : Nat)
    (responses : List AssistantMessage) :
    (∀ request ∈ (loop py hasGet cfg (left + 2) prompt.messages [] responses).requests, Paired request) ↔
      hasGet = false ∨ Answerable py (left + 2) responses := by
  cases hasGet with
  | false =>
    rw [(loop_objects left responses).1]
    simp [Prompt.messages,Paired]
  | true =>
    have start : prompt.messages = conversation prompt [] := by simp [conversation]
    rw [start,loop_paired (left + 1) [] (fun _ inside => absurd inside List.not_mem_nil) [] responses]
    simp

-- The message objects of the client library are models without a `get`.
theorem requests_paired (py : Runtime) (ctxCfg : Option ContextConfig) (prompt : Prompt)
    (responses : List AssistantMessage) :
    ∀ request ∈ (decide py false ctxCfg prompt responses).requests, Paired request :=
  (requests_paired_iff py false (ctxCfg.getD {}) prompt 18 responses).mpr (.inl rfl)

def plainPrompt : Prompt := ⟨"prompt",960,540,"png","task",""⟩

def screenshotCall (arguments : String) : ToolCall :=
  ⟨"call","screenshot",arguments,⟨.ok [],.ok "png"⟩⟩

theorem broken_call_paired :
    ∃ request ∈ (decide plainRuntime false none plainPrompt [⟨none,[screenshotCall "\x7b"]⟩]).requests,
      Paired request := by
  have sent : (decide plainRuntime false none plainPrompt [⟨none,[screenshotCall "\x7b"]⟩]).requests =
      [plainPrompt.messages] := (loop_objects 18 _).1
  have inside : plainPrompt.messages ∈
      (decide plainRuntime false none plainPrompt [⟨none,[screenshotCall "\x7b"]⟩]).requests := by
    rw [sent]
    exact List.mem_singleton_self _
  exact ⟨_,inside,requests_paired plainRuntime none plainPrompt _ _ inside⟩

def yielded (py : Runtime) (call : ToolCall) : Option (List Action) :=
  match py.loads call.arguments with
  | .ok args => (callTool py call.desktop call.name args (1 / scale)).toOption.map Prod.snd
  | .error _ => none

def expected (py : Runtime) : Nat → List AssistantMessage → Option (List Action)
  | 0,_ => some []
  | _ + 1,[] => none
  | left + 1,msg :: later =>
    if msg.toolCalls = [] then some []
    else do
      let now ← msg.toolCalls.mapM (yielded py)
      let more ← expected py left later
      return now.flatten ++ more

theorem handleCalls_yielded {calls : List ToolCall} {now : List (List Action)}
    (yields : calls.mapM (yielded py) = some now) :
    ∃ results, handleCalls py calls = .ok (now.flatten,results) := by
  induction calls generalizing now with
  | nil =>
    cases yields
    exact ⟨[],rfl⟩
  | cons call rest ih =>
    simp only [List.mapM_cons,Option.bind_eq_bind,Option.bind_eq_some_iff,Option.pure_def,
      Option.some.injEq] at yields
    obtain ⟨one,first,others,more,rfl⟩ := yields
    obtain ⟨results,handled⟩ := ih more
    unfold yielded at first
    cases loaded : py.loads call.arguments with
    | error error => simp [loaded] at first
    | ok args =>
      cases called : callTool py call.desktop call.name args (1 / scale) with
      | error exc =>
        simp only [loaded,called,Except.toOption,Option.map_none] at first
        cases first
      | ok result =>
        simp only [loaded,called,Except.toOption,Option.map_some,Option.some.injEq] at first
        rw [← first]
        exact ⟨_,handleCalls_added loaded called handled⟩

theorem loop_returns {left : Nat} {turns : List Answered} {allActions actions : List Action}
    {responses : List AssistantMessage} (yields : expected py left responses = some actions) :
    (loop py true cfg left (conversation prompt turns) allActions responses).outcome =
      .returned (allActions ++ actions) := by
  induction left generalizing turns allActions actions responses with
  | zero =>
    cases yields
    rw [loop,List.append_nil]
  | succ left ih =>
    cases responses with
    | nil => cases yields
    | cons msg later =>
      rw [loop,compact_conversation]
      by_cases ended : msg.toolCalls = []
      · rw [expected,if_pos ended] at yields
        cases yields
        simp [ended]
      · have some_ : ¬msg.toolCalls.isEmpty = true := by simpa using ended
        simp only [expected,if_neg ended,Option.bind_eq_bind,Option.bind_eq_some_iff,Option.pure_def,
          Option.some.injEq] at yields
        obtain ⟨now,first,more,others,rfl⟩ := yields
        obtain ⟨results,handled⟩ := handleCalls_yielded first
        simp only [if_neg some_,handled]
        rw [conversation_snoc turns ⟨msg,results,(handleCalls_results handled).1⟩,ih others,List.append_assoc]

-- The expected actions are returned exactly if the first response already has no calls.
theorem returned_expected_iff (py : Runtime) (cfg : ContextConfig) (prompt : Prompt) (left : Nat)
    (responses : List AssistantMessage) :
    (∃ actions, expected py (left + 2) responses = some actions ∧
      (loop py false cfg (left + 2) prompt.messages [] responses).outcome = .returned actions) ↔
    ∃ msg later, responses = msg :: later ∧ msg.toolCalls = [] := by
  constructor
  · intro returned
    obtain ⟨actions,_,outcome⟩ := returned
    exact (((loop_objects left responses).2 actions).mp outcome).2
  · intro first
    obtain ⟨msg,later,rfl,ended⟩ := first
    refine ⟨[],?_,((loop_objects left _).2 []).mpr ⟨rfl,msg,later,rfl,ended⟩⟩
    rw [expected,if_pos ended]

theorem second_request_raises : ¬∀ (responses : List AssistantMessage) (actions : List Action),
    expected plainRuntime maxLoop responses = some actions →
    (decide plainRuntime false none plainPrompt responses).outcome = .returned actions := by
  intro returns
  have yields : expected plainRuntime maxLoop [⟨none,[screenshotCall "\x7b\x7d"]⟩,⟨none,[]⟩] =
      some [⟨.screenshot,∅⟩] := rfl
  obtain ⟨_,msg,later,same,ended⟩ := ((loop_objects 18 _).2 _).mp (returns _ _ yields)
  cases same
  exact absurd ended (List.cons_ne_nil _ _)

end HyprlandAgent.Brain.OpenAI
