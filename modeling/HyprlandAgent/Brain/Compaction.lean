import Mathlib.Data.List.DropRight
import HyprlandAgent.Brain.Conversation

-- What compaction keeps of any list of messages. What is no dict built by a brain is an
-- object here, of which `get` may read anything; a role is a system's, a user's or another.
namespace HyprlandAgent.Brain
variable {α μ β : Type}

-- Each user message with what follows it up to the next; what comes before the first
-- is in no round.
def rounds (user : α → Bool) : List α → List (List α)
  | [] => []
  | item :: rest =>
    if user item then (item :: rest.takeWhile fun other => !user other) :: rounds user rest
    else rounds user rest

section
variable {user : α → Bool}

theorem length_rounds (user : α → Bool) (items : List α) : (rounds user items).length = items.countP user := by
  induction items with
  | nil => rfl
  | cons item rest ih => cases known : user item <;> simp [rounds,known,ih]

theorem rounds_append (front : List α) {first : α} {back : List α} (starts : user first = true) :
    rounds user (front ++ first :: back) = rounds user front ++ rounds user (first :: back) := by
  induction front with
  | nil => rfl
  | cons item rest ih =>
    have stops : (rest ++ first :: back).takeWhile (fun other => !user other) =
        rest.takeWhile fun other => !user other := by
      clear ih
      induction rest with
      | nil => simp [starts]
      | cons other more ih => cases known : user other <;> simp [known,ih]
    cases known : user item with
    | true =>
      rw [List.cons_append,rounds,rounds,if_pos known,if_pos known,stops,ih]
      rfl
    | false =>
      rw [List.cons_append,rounds,rounds,if_neg (by simp [known]),if_neg (by simp [known]),ih]

theorem rtake_append_length (front back : List α) : (front ++ back).rtake back.length = back := by
  simp [List.rtake]

theorem rounds_suffix {items back : List α} {first : α} (suffix : first :: back <:+ items)
    (starts : user first = true) : rounds user (first :: back) =
      (rounds user items).rtake ((first :: back).countP user) := by
  obtain ⟨front,rfl⟩ := suffix
  rw [rounds_append front starts,← length_rounds,rtake_append_length]

end

theorem roundStarts_count {i k j : Nat} {roles : List Role} (found : (roundStarts i roles)[k]? = some j) :
    (roles.drop (j - i)).countP (· == .user) + k = roles.countP (· == .user) := by
  induction roles generalizing i k with
  | nil => simp [roundStarts] at found
  | cons role rest ih =>
    have later : ∀ {k : Nat}, (roundStarts (i + 1) rest)[k]? = some j →
        ((role :: rest).drop (j - i)).countP (· == .user) + k = rest.countP (· == .user) := by
      intro k found
      have far := (roundStarts_get found).1
      rw [show j - i = j - (i + 1) + 1 by omega,List.drop_succ_cons]
      exact ih found
    by_cases user : role = .user
    · rw [roundStarts,if_pos user] at found
      cases k with
      | zero =>
        cases found
        simp
      | succ k =>
        have counted := later found
        rw [List.countP_cons_of_pos (by simpa using user)]
        omega
    · rw [roundStarts,if_neg user] at found
      rw [List.countP_cons_of_neg (by simpa using user)]
      exact later found

section
variable (get : μ → Option (Role × Content β)) (cfg : ContextConfig)

def isUser (message : Message μ β) : Bool :=
  match message.view get with
  | .ok (role,_) => role == .user
  | .error _ => false

def prompt : List (Message μ β) → Nat
  | [] => 0
  | first :: _ =>
    match first.view get with
    | .ok (role,_) => if role = .system then 1 else 0
    | .error _ => 0

-- What compaction is to return: everything within the budget, else the system prompt and
-- a part at the end with the last rounds, which is not compacted any further. Only where
-- rounds are to be kept does that part begin with one.
structure Compacts (messages kept : List (Message μ β)) : Prop where
  returned : compactMessages get cfg messages = .ok kept
  cheap : ∀ estimate, estimateTokens get messages = .ok estimate → estimate ≤ cfg.budgetTokens →
    kept = messages
  dear : ∀ estimate, estimateTokens get messages = .ok estimate → cfg.budgetTokens < estimate →
    ∃ suffix, suffix <:+ messages.drop (prompt get messages) ∧
      kept = messages.take (prompt get messages) ++ suffix ∧
      rounds (isUser get) suffix =
        (rounds (isUser get) messages).rtake (min cfg.keepRounds (messages.countP (isUser get))) ∧
      (cfg.keepRounds ≠ 0 → messages.countP (isUser get) ≠ 0 →
        ∃ first, suffix.head? = some first ∧ isUser get first = true)
  again : compactMessages get cfg kept = .ok kept

end

section
variable {get : μ → Option (Role × Content β)} {g : Message μ β → Role × Content β} {cfg : ContextConfig}
  {messages kept : List (Message μ β)}

def viewed (get : μ → Option (Role × Content β)) (message : Message μ β) : Role × Content β :=
  match message.view get with
  | .ok view => view
  | .error _ => (.assistant,.none)

theorem estimate_plain {estimate : Nat} (estimated : estimateTokens get messages = .ok estimate) :
    Plain get (viewed get) messages := by
  induction messages generalizing estimate with
  | nil =>
    intro message inside
    cases inside
  | cons first rest ih =>
    unfold estimateTokens at estimated
    rw [List.mapM_cons] at estimated
    cases view : first.view get with
    | error exc => simp [view,bind,Except.bind] at estimated
    | ok seen =>
      cases others : rest.mapM (Message.view get) with
      | error exc => simp [view,others,bind,Except.bind] at estimated
      | ok views =>
        intro message inside
        rcases List.mem_cons.mp inside with rfl | later
        · simp [viewed,view]
        · have counted : estimateTokens get rest = .ok (views.map fun view => view.2.tokens).sum := by
            simp [estimateTokens,others,bind,Except.bind,pure,Except.pure]
          exact ih counted message later

theorem plain_isUser (plain : Plain get g messages) {message : Message μ β} (inside : message ∈ messages) :
    isUser get message = ((g message).1 == .user) := by
  rw [isUser,plain message inside]

theorem plain_users (plain : Plain get g messages) : messages.countP (isUser get) = users g messages := by
  apply List.countP_congr
  intro message inside
  rw [plain_isUser plain inside]

theorem plain_prompt (plain : Plain get g messages) : prompt get messages =
    if (messages.map fun message => (g message).1).head? = some .system then 1 else 0 := by
  cases messages with
  | nil => rfl
  | cons first rest => simp [prompt,plain first List.mem_cons_self]

theorem rounds_rest (plain : Plain get g messages) :
    rounds (isUser get) (messages.drop (prompt get messages)) = rounds (isUser get) messages ∧
      (messages.drop (prompt get messages)).countP (isUser get) = messages.countP (isUser get) := by
  rw [plain_prompt plain]
  cases messages with
  | nil => exact ⟨rfl,rfl⟩
  | cons first rest =>
    by_cases system : (g first).1 = .system
    · have other : isUser get first = false := by
        rw [plain_isUser plain List.mem_cons_self,system]
        rfl
      simp [system,rounds,other]
    · simp [system]

theorem keepFrom_get {starts : List Nat} {keepRounds : Nat} (some_ : keepRounds ≠ 0) (present : starts ≠ []) :
    starts[starts.length - min keepRounds starts.length]? = some (keepFrom starts keepRounds) := by
  have counted : 0 < starts.length := List.length_pos_iff.mpr present
  unfold keepFrom
  by_cases many : keepRounds < starts.length
  · have inside : starts.length - keepRounds < starts.length := by omega
    rw [if_pos ⟨many,some_⟩,min_eq_left many.le,List.getD_eq_getElem?_getD,List.getElem?_eq_getElem inside]
    rfl
  · rw [if_neg (fun both => many both.1),min_eq_right (Nat.not_lt.mp many),Nat.sub_self,
      List.getD_eq_getElem?_getD,List.getElem?_eq_getElem counted]
    rfl

theorem cut_rounds {rest : List (Message μ β)} {keepRounds : Nat} (plain : Plain get g rest)
    (some_ : keepRounds ≠ 0) (present : rest.countP (isUser get) ≠ 0) :
    ∃ first back,
      rest.drop (keepFrom (roundStarts 0 (rest.map fun message => (g message).1)) keepRounds) = first :: back ∧
      isUser get first = true ∧
      (first :: back).countP (isUser get) = min keepRounds (rest.countP (isUser get)) := by
  rw [plain_users plain] at present ⊢
  have total : (roundStarts 0 (rest.map fun message => (g message).1)).length = users g rest := length_starts
  have starts : roundStarts 0 (rest.map fun message => (g message).1) ≠ [] := by
    intro none_
    rw [none_] at total
    exact present total.symm
  have found := keepFrom_get some_ starts
  rw [total] at found
  generalize keepFrom _ keepRounds = from_ at found ⊢
  have user := (roundStarts_get found).2
  have counted := roundStarts_count found
  rw [Nat.sub_zero,List.getElem?_map,Option.map_eq_some_iff] at user
  obtain ⟨first,there,role⟩ := user
  obtain ⟨inside,rfl⟩ := List.getElem?_eq_some_iff.mp there
  have dropped := List.drop_eq_getElem_cons inside
  refine ⟨_,_,dropped,?_,?_⟩
  · rw [plain_isUser plain (List.getElem_mem inside),role]
    rfl
  · have later : Plain get g (rest.drop from_) := fun message there => plain message (List.mem_of_mem_drop there)
    rw [← dropped,plain_users later]
    rw [Nat.sub_zero,← List.map_drop,List.countP_map,List.countP_map] at counted
    change users g (rest.drop from_) + _ = users g rest at counted
    omega

theorem prompt_user {first : Message μ β} (user : isUser get first = true) (back : List (Message μ β)) :
    prompt get (first :: back) = 0 := by
  unfold isUser at user
  simp only [prompt]
  split
  · rename_i role content view
    rw [view] at user
    have same : role = .user := by simpa using user
    rw [same]
    rfl
  · rfl

theorem prompt_short (messages : List (Message μ β)) :
    prompt get messages ≤ messages.length ∧ prompt get messages ≤ 1 := by
  cases messages with
  | nil => exact ⟨Nat.le_refl _,Nat.zero_le _⟩
  | cons first rest =>
    have one : prompt get (first :: rest) ≤ 1 := by
      simp only [prompt]
      split
      · split <;> simp
      · exact Nat.zero_le _
    exact ⟨one.trans (by simp),one⟩

theorem prompt_kept (messages : List (Message μ β)) {first : Message μ β} (user : isUser get first = true)
    (back : List (Message μ β)) :
    prompt get (messages.take (prompt get messages) ++ first :: back) = prompt get messages := by
  cases messages with
  | nil => exact prompt_user user back
  | cons system rest =>
    obtain ⟨_,one⟩ := prompt_short (system :: rest)
    rcases Nat.le_one_iff_eq_zero_or_eq_one.mp one with apart | set_
    · rw [apart]
      exact prompt_user user back
    · rw [set_]
      exact set_

theorem lastRounds_prompt (plain : Plain get g messages) (keepRounds : Nat) :
    lastRounds keepRounds (messages.map fun message => (g message).1) messages =
      if roundStarts 0 ((messages.drop (prompt get messages)).map fun message => (g message).1) = [] then messages
      else messages.take (prompt get messages) ++ (messages.drop (prompt get messages)).drop
        (keepFrom (roundStarts 0 ((messages.drop (prompt get messages)).map fun message => (g message).1))
          keepRounds) := by
  unfold lastRounds
  rw [← plain_prompt plain]
  simp only [List.map_drop]

theorem compact_short (plain : Plain get g messages) (short : messages.length ≤ 1) :
    compactMessages get cfg messages = .ok messages := by
  unfold compactMessages
  rw [estimate_cost plain]
  simp [bind,Except.bind,short,pure,Except.pure]

-- Nothing is dropped where no more rounds are left than are kept, and none of them is
-- cut off at the front.
structure Settled (get : μ → Option (Role × Content β)) (keepRounds : Nat) (rest : List (Message μ β)) :
    Prop where
  few : rest.countP (isUser get) ≤ keepRounds
  starts : rest.countP (isUser get) ≠ 0 → ∃ first, rest.head? = some first ∧ isUser get first = true

theorem lastRounds_settled (plain : Plain get g messages)
    (settled : Settled get cfg.keepRounds (messages.drop (prompt get messages))) :
    lastRounds cfg.keepRounds (messages.map fun message => (g message).1) messages = messages := by
  rw [lastRounds_prompt plain]
  have rest : Plain get g (messages.drop (prompt get messages)) :=
    fun message inside => plain message (List.mem_of_mem_drop inside)
  have total : (roundStarts 0 ((messages.drop (prompt get messages)).map fun message => (g message).1)).length =
      users g (messages.drop (prompt get messages)) := length_starts
  have few := settled.few
  rw [plain_users rest,← total] at few
  split
  · rfl
  · rename_i present
    have counted : (messages.drop (prompt get messages)).countP (isUser get) ≠ 0 := by
      rw [plain_users rest,← total]
      exact fun none_ => present (List.length_eq_zero_iff.mp none_)
    obtain ⟨first,head,user⟩ := settled.starts counted
    obtain ⟨back,whole⟩ := List.head?_eq_some_iff.mp head
    rw [keepFrom_all (.inr few)]
    have role : (g first).1 = .user := by
      rw [plain_isUser rest (whole ▸ List.mem_cons_self)] at user
      simpa using user
    rw [whole,starts_user role,List.drop_zero,← whole,List.take_append_drop]

theorem compact_settled (plain : Plain get g messages)
    (settled : Settled get cfg.keepRounds (messages.drop (prompt get messages))) :
    compactMessages get cfg messages = .ok messages := by
  by_cases cheap : cost g messages ≤ cfg.budgetTokens
  · exact compact_cheap plain cheap
  by_cases short : messages.length ≤ 1
  · exact compact_short plain short
  · rw [compact_dear plain cheap (Nat.not_le.mp short),lastRounds_settled plain settled]

theorem settled_compacts (plain : Plain get g messages)
    (settled : Settled get cfg.keepRounds (messages.drop (prompt get messages))) :
    Compacts get cfg messages messages := by
  have same := compact_settled plain settled
  refine ⟨same,fun _ _ _ => rfl,?_,same⟩
  intro estimate _ _
  obtain ⟨all,counted⟩ := rounds_rest plain
  refine ⟨_,List.suffix_rfl,(List.take_append_drop ..).symm,?_,?_⟩
  · have few := settled.few
    rw [all,min_eq_right (counted ▸ few),← length_rounds,List.rtake,Nat.sub_self,List.drop_zero]
  · rw [← counted]
    exact fun _ => settled.starts

theorem cut_compacts (plain : Plain get g messages) (dear : ¬cost g messages ≤ cfg.budgetTokens)
    (several : 1 < messages.length) (some_ : cfg.keepRounds ≠ 0)
    (present : messages.countP (isUser get) ≠ 0) : ∃ kept, Compacts get cfg messages kept := by
  obtain ⟨all,counted⟩ := rounds_rest plain
  have rest : Plain get g (messages.drop (prompt get messages)) :=
    fun message inside => plain message (List.mem_of_mem_drop inside)
  obtain ⟨first,back,dropped,user,number⟩ := cut_rounds rest some_ (counted.symm ▸ present)
  have starts : roundStarts 0 ((messages.drop (prompt get messages)).map fun message => (g message).1) ≠ [] := by
    intro none_
    have total : (roundStarts 0 ((messages.drop (prompt get messages)).map fun message => (g message).1)).length =
        users g (messages.drop (prompt get messages)) := length_starts
    rw [none_,← plain_users rest,counted] at total
    exact present total.symm
  have suffix : first :: back <:+ messages.drop (prompt get messages) := dropped ▸ List.drop_suffix ..
  have returned : compactMessages get cfg messages =
      .ok (messages.take (prompt get messages) ++ first :: back) := by
    rw [compact_dear plain dear several,lastRounds_prompt plain,if_neg starts,dropped]
  refine ⟨_,returned,?_,?_,?_⟩
  · intro estimate estimated cheap
    rw [estimate_cost plain] at estimated
    cases estimated
    exact absurd cheap dear
  · intro estimate _ _
    refine ⟨first :: back,suffix,rfl,?_,fun _ _ => ⟨first,rfl,user⟩⟩
    rw [rounds_suffix suffix user,all,number,counted]
  · have kept : Plain get g (messages.take (prompt get messages) ++ first :: back) := by
      intro message inside
      rcases List.mem_append.mp inside with front | later
      · exact plain message (List.mem_of_mem_take front)
      · exact rest message (suffix.subset later)
    have same : (messages.take (prompt get messages) ++ first :: back).drop
        (prompt get (messages.take (prompt get messages) ++ first :: back)) = first :: back := by
      rw [prompt_kept messages user back]
      exact List.drop_left' (List.length_take_of_le (prompt_short messages).1)
    apply compact_settled kept
    rw [same]
    refine ⟨?_,fun _ => ⟨first,rfl,user⟩⟩
    rw [number]
    exact min_le_left _ _

theorem prompt_users (plain : Plain get g messages) :
    (messages.take (prompt get messages)).countP (isUser get) = 0 := by
  have whole := congrArg (List.countP (isUser get)) (List.take_append_drop (prompt get messages) messages)
  rw [List.countP_append,(rounds_rest plain).2] at whole
  omega

theorem users_kept (plain : Plain get g messages) (zero : cfg.keepRounds = 0)
    (returned : compactMessages get cfg messages = .ok kept) :
    kept.countP (isUser get) = messages.countP (isUser get) := by
  by_cases cheap : cost g messages ≤ cfg.budgetTokens
  · rw [compact_cheap plain cheap] at returned
    rw [Except.ok.inj returned]
  by_cases several : 1 < messages.length
  · rw [compact_dear plain cheap several,lastRounds_prompt plain,zero] at returned
    have rest : Plain get g (messages.drop (prompt get messages)) :=
      fun message inside => plain message (List.mem_of_mem_drop inside)
    split at returned
    · rw [Except.ok.inj returned]
    · rename_i present
      obtain ⟨start,others,starts⟩ := List.exists_cons_of_ne_nil present
      rw [starts] at returned
      have from_ : keepFrom (start :: others) 0 = start := keepFrom_all (.inl rfl)
      have found : (roundStarts 0 ((messages.drop (prompt get messages)).map fun message => (g message).1))[0]? =
          some start := by
        rw [starts]
        rfl
      have counted := roundStarts_count found
      rw [Nat.sub_zero,Nat.add_zero,← List.map_drop,List.countP_map,List.countP_map] at counted
      have later : Plain get g ((messages.drop (prompt get messages)).drop start) :=
        fun message inside => rest message (List.mem_of_mem_drop inside)
      have same : ((messages.drop (prompt get messages)).drop start).countP (isUser get) =
          (messages.drop (prompt get messages)).countP (isUser get) := by
        rw [plain_users later,plain_users rest]
        exact counted
      rw [← Except.ok.inj returned,from_,List.countP_append,prompt_users plain,Nat.zero_add,same,
        (rounds_rest plain).2]
  · rw [compact_short plain (Nat.not_lt.mp several)] at returned
    rw [Except.ok.inj returned]

-- Compaction returns what it is to return exactly if the messages can be read and a
-- budget that is exceeded does not meet a `keep_rounds` of 0 and a user message.
theorem compacts_iff (get : μ → Option (Role × Content β)) (cfg : ContextConfig)
    (messages : List (Message μ β)) : (∃ kept, Compacts get cfg messages kept) ↔
      ∃ estimate, estimateTokens get messages = .ok estimate ∧
        (estimate ≤ cfg.budgetTokens ∨ messages.countP (isUser get) = 0 ∨ cfg.keepRounds ≠ 0) := by
  constructor
  · intro compacts
    obtain ⟨kept,compacts⟩ := compacts
    cases estimated : estimateTokens get messages with
    | error exc =>
      have returned := compacts.returned
      simp [compactMessages,estimated,bind,Except.bind] at returned
    | ok estimate =>
      refine ⟨estimate,rfl,?_⟩
      by_contra missed
      simp only [not_or,Nat.not_le,not_not] at missed
      obtain ⟨dear,present,zero⟩ := missed
      obtain ⟨suffix,_,same,last,_⟩ := compacts.dear estimate estimated dear
      have plain := estimate_plain estimated
      rw [zero,Nat.zero_min,List.rtake_zero] at last
      have none_ : suffix.countP (isUser get) = 0 := by
        rw [← length_rounds,last]
        rfl
      have all := users_kept plain zero compacts.returned
      rw [same,List.countP_append,prompt_users plain,none_] at all
      exact present all.symm
  · intro readable
    obtain ⟨estimate,estimated,room⟩ := readable
    have plain := estimate_plain estimated
    rw [estimate_cost plain] at estimated
    cases estimated
    by_cases cheap : cost (viewed get) messages ≤ cfg.budgetTokens
    · have same := compact_cheap plain cheap
      refine ⟨messages,same,fun _ _ _ => rfl,?_,same⟩
      intro estimate estimated dear
      rw [estimate_cost plain] at estimated
      cases estimated
      exact absurd cheap (Nat.not_le.mpr dear)
    obtain ⟨all,counted⟩ := rounds_rest plain
    by_cases present : messages.countP (isUser get) = 0
    · refine ⟨messages,settled_compacts plain ⟨?_,?_⟩⟩
      · rw [counted,present]
        exact Nat.zero_le _
      · rw [counted]
        exact fun some_ => absurd present some_
    have some_ := (room.resolve_left cheap).resolve_left present
    by_cases several : 1 < messages.length
    · exact cut_compacts plain cheap several some_ present
    -- A single message, and from the user.
    have short := List.countP_le_length (p:=isUser get) (l:=messages)
    obtain ⟨only,rfl⟩ := List.length_eq_one_iff.mp (show messages.length = 1 by omega)
    have user : isUser get only = true := by
      by_contra other
      exact present (List.countP_singleton.trans (if_neg other))
    refine ⟨[only],settled_compacts plain ?_⟩
    rw [prompt_user user]
    refine ⟨short.trans ?_,fun _ => ⟨only,rfl,user⟩⟩
    exact Nat.one_le_iff_ne_zero.mpr some_

end
def twoRounds : List (Message Empty Empty) :=
  [.dict .user (.str "Hello, agent"),.dict .assistant (.str "Hello"),.dict .user (.str "Close all")]

theorem no_rounds_to_keep : ¬ ∀ (get : Empty → Option (Role × Content Empty)) (cfg : ContextConfig)
    (messages : List (Message Empty Empty)), 1 ≤ cfg.budgetTokens →
    (∃ estimate, estimateTokens get messages = .ok estimate) → ∃ kept, Compacts get cfg messages kept := by
  intro always
  have read : estimateTokens Empty.elim twoRounds = .ok 18 := by rfl
  have compacts := always Empty.elim ⟨10,0⟩ twoRounds (by decide) ⟨18,read⟩
  obtain ⟨estimate,estimated,room⟩ := (compacts_iff _ _ _).mp compacts
  rw [read] at estimated
  cases estimated
  revert room
  decide

end HyprlandAgent.Brain
