import HyprlandAgent.Brain.Claude
import Mathlib.Data.List.Induction

-- What compaction leaves of the rounds of a conversation.
namespace HyprlandAgent.Brain.Claude

def ContentBlock.useId : ContentBlock → Option String
  | .toolUse id _ _ => some id
  | .other _ => none

def resultId : Block ContentBlock → Option String
  | .toolResult id _ => some id
  | _ => none

def blockUse : Block ContentBlock → Option String
  | .object block => block.useId
  | _ => none

def blocksOf : Message Empty ContentBlock → Role × List (Block ContentBlock)
  | .dict role (.blocks parts) _ => (role,parts)
  | .dict role _ _ => (role,[])

def uses (message : Message Empty ContentBlock) : List String :=
  if (blocksOf message).1 = .assistant then (blocksOf message).2.filterMap blockUse else []

def results (message : Message Empty ContentBlock) : List String :=
  if (blocksOf message).1 = .user then (blocksOf message).2.filterMap resultId else []

def NoOrphans (request : Conversation) : Prop :=
  ∀ (i : Nat) (message : Message Empty ContentBlock), request[i]? = some message →
    ∀ id ∈ results message, ∃ j < i, ∃ earlier, request[j]? = some earlier ∧ id ∈ uses earlier

structure Intact (task : Message Empty ContentBlock) (request : Conversation) : Prop where
  kept : task ∈ request
  paired : NoOrphans request

structure Round where
  content : List ContentBlock
  toolResults : List (Block ContentBlock)

def Round.messages (round : Round) : Conversation :=
  [assistantTurn round.content,resultsTurn round.toolResults]

structure Round.Answered (round : Round) : Prop where
  some_ : round.toolResults ≠ []
  only : ∀ block ∈ round.toolResults, ∃ id content, block = .toolResult id content
  same : round.toolResults.filterMap resultId = round.content.filterMap ContentBlock.useId

def rounds (py : Runtime) : Nat → List Response → List Round
  | left + 2,response :: later =>
    match handleContent py response.clients response.content with
    | .error _ => []
    | .ok (_,toolResults) =>
      if response.stopReason = "end_turn" ∨ toolResults.isEmpty then []
      else ⟨response.content,toolResults⟩ :: rounds py (left + 1) later
  | _,_ => []

def conversation (task : Message Empty ContentBlock) (past : List Round) : Conversation :=
  task :: past.flatMap Round.messages

theorem uses_assistant (content : List ContentBlock) :
    uses (assistantTurn content) = content.filterMap ContentBlock.useId := by
  simp [uses,assistantTurn,blocksOf,List.filterMap_map,Function.comp_def,blockUse]

theorem results_user (toolResults : List (Block ContentBlock)) :
    results (resultsTurn toolResults) = toolResults.filterMap resultId := by
  simp [results,resultsTurn,blocksOf]

theorem results_assistant (content : List ContentBlock) : results (assistantTurn content) = [] := by
  simp [results,assistantTurn,blocksOf]

variable {py : Runtime} {clients : Except Exc (List Window)}

theorem handleContent_answers {content : List ContentBlock} {actions : List Action}
    {toolResults : List (Block ContentBlock)}
    (handled : handleContent py clients content = .ok (actions,toolResults)) :
    (∀ block ∈ toolResults, ∃ id content, block = .toolResult id content) ∧
      toolResults.filterMap resultId = content.filterMap ContentBlock.useId := by
  induction content generalizing actions toolResults with
  | nil =>
    cases handled
    exact ⟨fun _ inside => absurd inside List.not_mem_nil,rfl⟩
  | cons block rest ih =>
    cases block with
    | other type =>
      obtain ⟨only,same⟩ := ih handled
      rw [List.filterMap_cons_none rfl]
      exact ⟨only,same⟩
    | toolUse id name input =>
      simp only [handleContent,bind,Except.bind] at handled
      cases one : handleToolUse py clients name input with
      | error exc => simp [one] at handled
      | ok result =>
        cases others : handleContent py clients rest with
        | error exc => simp [one,others] at handled
        | ok more =>
          simp only [one,others,pure,Except.pure,Except.ok.injEq,Prod.mk.injEq] at handled
          obtain ⟨only,same⟩ := ih others
          rw [← handled.2]
          constructor
          · intro block inside
            rcases List.mem_cons.mp inside with rfl | later
            · exact ⟨id,_,rfl⟩
            · exact only block later
          · have both (id : String) : resultId (.toolResult id (.parts [result.1])) = some id ∧
                (ContentBlock.toolUse id name input).useId = some id := ⟨rfl,rfl⟩
            rw [List.filterMap_cons_some (both id).1,List.filterMap_cons_some (both id).2,same]

def viewOf : Message Empty ContentBlock → Role × Content ContentBlock
  | .dict role content _ => (role,content)

theorem plain_dicts (messages : Conversation) : Plain Empty.elim viewOf messages := by
  intro message _
  cases message with
  | dict role content toolCallId => rfl
  | object message => exact message.elim

structure IsTask (task : Message Empty ContentBlock) : Prop where
  user : (viewOf task).1 = .user
  asks : results task = []

theorem isTask_taskMessage (png task preamble : String) : IsTask (taskMessage png task preamble) where
  user := rfl
  asks := by simp [results,taskMessage,blocksOf,resultId]

variable {task : Message Empty ContentBlock} {past : List Round} {round : Round}

theorem conversation_snoc (past : List Round) (round : Round) :
    conversation task (past ++ [round]) = conversation task past ++ round.messages := by
  simp [conversation]

theorem mem_rounds {message : Message Empty ContentBlock} (inside : message ∈ past.flatMap Round.messages) :
    ∃ round ∈ past, message = assistantTurn round.content ∨ message = resultsTurn round.toolResults := by
  obtain ⟨round,held,which⟩ := List.mem_flatMap.mp inside
  refine ⟨round,held,?_⟩
  simpa [Round.messages] using which

theorem noOrphans_snoc {request : Conversation} (paired : NoOrphans request) (answered : round.Answered) :
    NoOrphans (request ++ round.messages) := by
  intro i message found id inside
  by_cases before : i < request.length
  · rw [List.getElem?_append_left before] at found
    obtain ⟨j,earlier,use,held,named⟩ := paired i message found id inside
    have there : (request ++ round.messages)[j]? = some use := by
      rw [List.getElem?_append_left (by omega)]
      exact held
    exact ⟨j,earlier,use,there,named⟩
  · rw [List.getElem?_append_right (by omega)] at found
    have two : i - request.length < 2 := (List.getElem?_eq_some_iff.mp found).1
    have call : (request ++ round.messages)[request.length]? = some (assistantTurn round.content) := by
      rw [List.getElem?_append_right (Nat.le_refl _),Nat.sub_self]
      rfl
    by_cases first : i - request.length = 0
    · rw [first] at found
      cases found
      rw [results_assistant] at inside
      exact absurd inside List.not_mem_nil
    · have second : i - request.length = 1 := by omega
      rw [second] at found
      cases found
      rw [results_user,answered.same,← uses_assistant] at inside
      exact ⟨request.length,by omega,_,call,inside⟩

theorem intact_conversation (isTask : IsTask task) (answered : ∀ round ∈ past, round.Answered) :
    Intact task (conversation task past) := by
  refine ⟨List.mem_cons_self,?_⟩
  induction past using List.reverseRecOn with
  | nil =>
    intro i message found id inside
    have only : message = task := by
      obtain ⟨first,rfl⟩ := List.getElem?_eq_some_iff.mp found
      exact List.mem_singleton.mp (List.getElem_mem first)
    rw [only,isTask.asks] at inside
    exact absurd inside List.not_mem_nil
  | append_singleton past round ih =>
    rw [conversation_snoc]
    exact noOrphans_snoc (ih fun earlier held => answered earlier (List.mem_append_left _ held))
      (answered round (List.mem_append_right _ (List.mem_singleton_self _)))

theorem results_some {round : Round} (answered : round.Answered) :
    results (resultsTurn round.toolResults) ≠ [] := by
  rw [results_user]
  intro none_
  cases split : round.toolResults with
  | nil => exact answered.some_ split
  | cons block rest =>
    obtain ⟨id,content,rfl⟩ := answered.only block (split ▸ List.mem_cons_self)
    have named := List.filterMap_eq_nil_iff.mp none_ _ (split ▸ List.mem_cons_self)
    exact absurd named (Option.some_ne_none id)

theorem not_intact_later {front back : Conversation} {next : Message Empty ContentBlock}
    (isTask : IsTask task) (answered : ∀ round ∈ past, round.Answered)
    (split : past.flatMap Round.messages = front ++ next :: back) (user : (viewOf next).1 = .user) :
    task ∉ next :: back ∧ ¬NoOrphans (next :: back) := by
  have of_user {message : Message Empty ContentBlock} (held : message ∈ next :: back)
      (user : (viewOf message).1 = .user) : results message ≠ [] := by
    obtain ⟨round,inside,which⟩ := @mem_rounds past _ (split ▸ List.mem_append_right _ held)
    rcases which with rfl | rfl
    · exact absurd user Role.noConfusion
    · exact results_some (answered round inside)
  constructor
  · intro kept
    exact of_user kept isTask.user isTask.asks
  · intro paired
    obtain ⟨id,rest,some_⟩ := List.exists_cons_of_ne_nil (of_user List.mem_cons_self user)
    obtain ⟨j,before,_⟩ := paired 0 next rfl id (some_ ▸ List.mem_cons_self)
    exact absurd before (Nat.not_lt_zero j)

section
variable {cfg : ContextConfig} {P : Conversation → Prop}

theorem compact_conversation (isTask : IsTask task) (roomy : Roomy viewOf cfg (conversation task past)) :
    compactMessages Empty.elim cfg (conversation task past) = .ok (conversation task past) :=
  compact_roomy (plain_dicts _) isTask.user roomy

theorem loop_next {messages kept : Conversation} (compacted : compactMessages Empty.elim cfg messages = .ok kept)
    (left : Nat) (allActions : List Action) (responses : List Response) :
    ∃ further, (loop py cfg (left + 1) messages allActions responses).requests = kept :: further ∧
      ((further = [] ∧ rounds py (left + 1) responses = []) ∨
        ∃ fewer round actions later, left = fewer + 1 ∧ round.Answered ∧
          rounds py (left + 1) responses = round :: rounds py left later ∧
          further = (loop py cfg left (kept ++ round.messages) actions later).requests) := by
  rw [loop,compacted]
  cases responses with
  | nil =>
    refine ⟨[],rfl,.inl ⟨rfl,?_⟩⟩
    cases left <;> rfl
  | cons response later =>
    cases handled : handleContent py response.clients response.content with
    | error exc =>
      refine ⟨[],by simp only [handled],.inl ⟨rfl,?_⟩⟩
      cases left with
      | zero => rfl
      | succ fewer => simp only [rounds,handled]
    | ok result =>
      obtain ⟨actions,toolResults⟩ := result
      by_cases ended : response.stopReason = "end_turn" ∨ toolResults.isEmpty = true
      · refine ⟨[],by simp only [handled,if_pos ended],.inl ⟨rfl,?_⟩⟩
        cases left with
        | zero => rfl
        | succ fewer => simp only [rounds,handled,if_pos ended]
      · cases left with
        | zero => exact ⟨[],by simp only [handled,if_neg ended,loop],.inl ⟨rfl,rfl⟩⟩
        | succ fewer =>
          obtain ⟨only,same⟩ := handleContent_answers handled
          have some_ : toolResults ≠ [] := by
            intro same
            subst same
            exact ended (.inr rfl)
          refine ⟨(loop py cfg (fewer + 1) (kept ++ Round.messages ⟨response.content,toolResults⟩)
              (allActions ++ actions) later).requests,by simp only [handled,if_neg ended,Round.messages],.inr
            ⟨fewer,⟨response.content,toolResults⟩,allActions ++ actions,later,rfl,⟨some_,only,same⟩,?_,rfl⟩⟩
          simp only [rounds,handled,if_neg ended]

theorem loop_requests (isTask : IsTask task)
    (whole : ∀ past : List Round, (∀ round ∈ past, round.Answered) → P (conversation task past))
    (cut : ∀ (past : List Round) (front : Conversation) (next : Message Empty ContentBlock)
      (back : Conversation), (∀ round ∈ past, round.Answered) →
      past.flatMap Round.messages = front ++ next :: back → (viewOf next).1 = .user → ¬P (next :: back))
    (left : Nat) (past : List Round) (answered : ∀ round ∈ past, round.Answered)
    (allActions : List Action) (responses : List Response) :
    (∀ request ∈ (loop py cfg (left + 1) (conversation task past) allActions responses).requests, P request) ↔
      Roomy viewOf cfg (conversation task (past ++ rounds py (left + 1) responses)) := by
  induction left using Nat.strong_induction_on generalizing past allActions responses with
  | _ left ih =>
    by_cases roomy : Roomy viewOf cfg (conversation task past)
    · obtain ⟨further,sent,next⟩ := loop_next (compact_conversation isTask roomy) left allActions responses
      rw [sent,List.forall_mem_cons]
      rcases next with ⟨rfl,none_⟩ | ⟨fewer,round,actions,later,rfl,full,more,rfl⟩
      · rw [none_,List.append_nil]
        exact ⟨fun _ => roomy,fun _ => ⟨whole past answered,fun _ inside => absurd inside List.not_mem_nil⟩⟩
      · have each : ∀ held ∈ past ++ [round], held.Answered := by
          intro held inside
          rcases List.mem_append.mp inside with before | last
          · exact answered held before
          · rw [List.mem_singleton.mp last]
            exact full
        have after := ih fewer (Nat.lt_succ_self fewer) (past ++ [round]) each actions later
        rw [conversation_snoc,List.append_assoc,List.singleton_append,← more] at after
        rw [← after]
        exact ⟨fun all => all.2,fun all => ⟨whole past answered,all⟩⟩
    · have crowded : ¬Roomy viewOf cfg (conversation task (past ++ rounds py (left + 1) responses)) := by
        intro later
        have grown : conversation task (past ++ rounds py (left + 1) responses) =
            conversation task past ++ (rounds py (left + 1) responses).flatMap Round.messages := by
          simp [conversation]
        rw [grown] at later
        exact roomy (roomy_earlier later)
      obtain ⟨front,next,back,split,user,compacted⟩ := compact_crowded (plain_dicts _) isTask.user roomy
      obtain ⟨further,sent,_⟩ :=
        @loop_next py cfg (conversation task past) (next :: back) compacted left allActions responses
      rw [sent,List.forall_mem_cons]
      exact ⟨fun all => absurd all.1 (cut past front next back answered split user),
        fun later => absurd later crowded⟩

end

-- `decide` sends the task and every call's result in order exactly as long as nothing is dropped.
theorem requests_intact_iff (py : Runtime) (cfg : ContextConfig) (png text preamble : String) (left : Nat)
    (responses : List Response) :
    (∀ request ∈ (loop py cfg (left + 1) [taskMessage png text preamble] [] responses).requests,
      Intact (taskMessage png text preamble) request) ↔
    Roomy viewOf cfg (conversation (taskMessage png text preamble) (rounds py (left + 1) responses)) := by
  have isTask := isTask_taskMessage png text preamble
  refine loop_requests isTask ?_ ?_ left [] (fun _ inside => absurd inside List.not_mem_nil) [] responses
  · intro past answered
    exact intact_conversation isTask answered
  · intro past front next back answered split user intact
    exact (not_intact_later isTask answered split user).1 intact.kept

def readClipboard : Response where
  content := [.toolUse "a" "clipboard_read" ∅]
  stopReason := "tool_use"
  clients := .ok []

theorem result_sent_alone : ¬∀ (cfg : ContextConfig) (responses : List Response),
    1 ≤ cfg.budgetTokens → ∀ request ∈ (decide plainRuntime (some cfg) "png" "task" "" responses).requests,
      Intact (taskMessage "png" "task" "") request := by
  intro intact
  have alone : [resultsTurn [.toolResult "a" (.parts ["Reading clipboard..."])]] ∈
      (decide plainRuntime (some ⟨1,1⟩) "png" "task" "" [readClipboard]).requests := by
    have sent : (decide plainRuntime (some ⟨1,1⟩) "png" "task" "" [readClipboard]).requests =
        [[taskMessage "png" "task" ""],[resultsTurn [.toolResult "a" (.parts ["Reading clipboard..."])]]] := rfl
    rw [sent]
    exact List.mem_cons_of_mem _ (List.mem_singleton_self _)
  have paired := (intact ⟨1,1⟩ [readClipboard] (Nat.le_refl 1) _ alone).paired
  obtain ⟨j,before,_⟩ := paired 0 _ rfl "a" (by simp [results,resultsTurn,blocksOf,resultId])
  exact absurd before (Nat.not_lt_zero j)

end HyprlandAgent.Brain.Claude
