import Mathlib.Algebra.GroupWithZero.Nat
import HyprlandAgent.Effects

-- Shared constants and helpers for brain implementations: the messages of a
-- conversation, what they cost, and how they are compacted.
namespace HyprlandAgent.Brain

def maxLoop : Nat := 20

def scale : Seconds := 1/2

def charsPerToken : Nat := 4

def tokensPerMegapixel : Nat := 1000

structure ContextConfig where
  budgetTokens : Nat := 160000
  keepRounds : Nat := 3

inductive Role where
  | system | user | assistant | tool
  deriving DecidableEq, Repr

inductive ResultContent where
  | str (text : String)
  | parts (texts : List String)

inductive Block (β : Type) where
  | text (text : String)
  | image (data : String)
  | imageUrl (url : String)
  | toolResult (toolUseId : String) (content : ResultContent)
  | object (block : β)

inductive Content (β : Type) where
  | none
  | str (text : String)
  | blocks (list : List (Block β))

-- A message is a dict, or the object that a client library answered with.
inductive Message (μ β : Type) where
  | dict (role : Role) (content : Content β) (toolCallId : Option String := none)
  | object (message : μ)

def textTokens (text : String) : Nat := text.length / charsPerToken

variable {μ β : Type}

def Block.tokens : Block β → Nat
  | .text chars => textTokens chars
  | .image _ => tokensPerMegapixel / 2
  | .imageUrl _ => tokensPerMegapixel / 2
  | .toolResult _ (.str chars) => textTokens chars
  | .toolResult _ (.parts texts) => (texts.map textTokens).sum
  | .object _ => 0

def Content.tokens : Content β → Nat
  | .none => 4
  | .str chars => textTokens chars + 4
  | .blocks parts => (parts.map Block.tokens).sum + 4

-- `msg.get("role")` and `msg.get("content")`; an object may have no `get`.
def Message.view (get : μ → Option (Role × Content β)) : Message μ β → Except Exc (Role × Content β)
  | .dict role content _ => .ok (role,content)
  | .object message =>
    match get message with
    | some view => .ok view
    | none => .error (.other "object has no attribute 'get'")

def estimateTokens (get : μ → Option (Role × Content β)) (messages : List (Message μ β)) :
    Except Exc Nat := do
  let views ← messages.mapM (Message.view get)
  return (views.map fun view => view.2.tokens).sum

-- Each user message starts a round; the indices count from `i`.
def roundStarts (i : Nat) : List Role → List Nat
  | [] => []
  | role :: rest => if role = .user then i :: roundStarts (i + 1) rest else roundStarts (i + 1) rest

-- `round_starts[-keep_rounds] if len(round_starts) > keep_rounds else round_starts[0]`,
-- where index -0 is 0.
def keepFrom (starts : List Nat) (keepRounds : Nat) : Nat :=
  if keepRounds < starts.length ∧ keepRounds ≠ 0 then starts.getD (starts.length - keepRounds) 0
  else starts.getD 0 0

def lastRounds (keepRounds : Nat) (roles : List Role) (messages : List (Message μ β)) :
    List (Message μ β) :=
  let restStart := if roles.head? = some .system then 1 else 0
  let starts := roundStarts 0 (roles.drop restStart)
  if starts = [] then messages
  else messages.take restStart ++ (messages.drop restStart).drop (keepFrom starts keepRounds)

def compactMessages (get : μ → Option (Role × Content β)) (cfg : ContextConfig)
    (messages : List (Message μ β)) : Except Exc (List (Message μ β)) := do
  if (← estimateTokens get messages) ≤ cfg.budgetTokens then return messages
  if messages.length ≤ 1 then return messages
  let views ← messages.mapM (Message.view get)
  return lastRounds cfg.keepRounds (views.map Prod.fst) messages

inductive Outcome where
  | returned (actions : List Action)
  | raised (exc : Exc)
  | waiting

structure Trace (μ β : Type) where
  requests : List (List (Message μ β))
  outcome : Outcome

theorem length_roundStarts (i : Nat) (roles : List Role) :
    (roundStarts i roles).length = roles.countP (· == .user) := by
  induction roles generalizing i with
  | nil => rfl
  | cons role rest ih =>
    by_cases user : role = .user
    · simp [roundStarts,user,ih]
    · simp [roundStarts,user,ih]

theorem roundStarts_get {i k j : Nat} {roles : List Role} (found : (roundStarts i roles)[k]? = some j) :
    i + k ≤ j ∧ roles[j - i]? = some .user := by
  induction roles generalizing i k with
  | nil => simp [roundStarts] at found
  | cons role rest ih =>
    have later : ∀ {k : Nat}, (roundStarts (i + 1) rest)[k]? = some j →
        i + 1 + k ≤ j ∧ (role :: rest)[j - i]? = some .user := by
      intro k found
      obtain ⟨far,user⟩ := ih found
      have next : j - i = j - (i + 1) + 1 := by omega
      rw [next,List.getElem?_cons_succ]
      exact ⟨far,user⟩
    by_cases user : role = .user
    · rw [roundStarts,if_pos user] at found
      cases k with
      | zero =>
        cases found
        simp [user]
      | succ k =>
        obtain ⟨far,there⟩ := later found
        exact ⟨by omega,there⟩
    · rw [roundStarts,if_neg user] at found
      obtain ⟨far,there⟩ := later found
      exact ⟨by omega,there⟩

variable {get : μ → Option (Role × Content β)} {g : Message μ β → Role × Content β}
  {cfg : ContextConfig} {messages more : List (Message μ β)}

def Plain (get : μ → Option (Role × Content β)) (g : Message μ β → Role × Content β)
    (messages : List (Message μ β)) : Prop :=
  ∀ message ∈ messages, message.view get = .ok (g message)

theorem plain_views (plain : Plain get g messages) :
    messages.mapM (Message.view get) = .ok (messages.map g) := by
  induction messages with
  | nil => rfl
  | cons first rest ih =>
    have others : Plain get g rest := fun message inside => plain message (List.mem_cons_of_mem _ inside)
    rw [List.mapM_cons,plain first List.mem_cons_self,ih others]
    rfl

def cost (g : Message μ β → Role × Content β) (messages : List (Message μ β)) : Nat :=
  (messages.map fun message => (g message).2.tokens).sum

def users (g : Message μ β → Role × Content β) (messages : List (Message μ β)) : Nat :=
  messages.countP fun message => (g message).1 == .user

theorem estimate_cost (plain : Plain get g messages) :
    estimateTokens get messages = .ok (cost g messages) := by
  simp [estimateTokens,plain_views plain,cost,bind,Except.bind,pure,Except.pure,Function.comp_def]

def Roomy (g : Message μ β → Role × Content β) (cfg : ContextConfig) (messages : List (Message μ β)) : Prop :=
  cost g messages ≤ cfg.budgetTokens ∨ cfg.keepRounds = 0 ∨ users g messages ≤ cfg.keepRounds

theorem roomy_earlier (roomy : Roomy g cfg (messages ++ more)) : Roomy g cfg messages := by
  unfold Roomy cost users at *
  rw [List.map_append,List.sum_append,List.countP_append] at roomy
  omega

theorem length_starts {messages : List (Message μ β)} :
    (roundStarts 0 (messages.map fun message => (g message).1)).length = users g messages := by
  rw [length_roundStarts,List.countP_map]
  rfl

theorem compact_cheap (plain : Plain get g messages) (cheap : cost g messages ≤ cfg.budgetTokens) :
    compactMessages get cfg messages = .ok messages := by
  unfold compactMessages
  rw [estimate_cost plain]
  simp [bind,Except.bind,cheap,pure,Except.pure]

theorem compact_dear (plain : Plain get g messages) (dear : ¬cost g messages ≤ cfg.budgetTokens)
    (several : 1 < messages.length) : compactMessages get cfg messages =
      .ok (lastRounds cfg.keepRounds (messages.map fun message => (g message).1) messages) := by
  unfold compactMessages
  rw [estimate_cost plain,plain_views plain]
  simp only [bind,Except.bind,pure,Except.pure,if_neg dear,if_neg (Nat.not_le_of_lt several),List.map_map]
  rfl

theorem lastRounds_user {first : Message μ β} {rest : List (Message μ β)} {keepRounds : Nat}
    (user : (g first).1 = .user) :
    lastRounds keepRounds ((first :: rest).map fun message => (g message).1) (first :: rest) =
      (first :: rest).drop
        (keepFrom (roundStarts 0 ((first :: rest).map fun message => (g message).1)) keepRounds) := by
  simp [lastRounds,user,roundStarts]

theorem keepFrom_all {starts : List Nat} {keepRounds : Nat}
    (few : keepRounds = 0 ∨ starts.length ≤ keepRounds) : keepFrom starts keepRounds = starts.getD 0 0 := by
  rw [keepFrom,if_neg]
  omega

theorem keepFrom_some {roles : List Role} {keepRounds : Nat} (some_ : keepRounds ≠ 0)
    (many : keepRounds < (roundStarts 0 roles).length) :
    0 < keepFrom (roundStarts 0 roles) keepRounds ∧
      roles[keepFrom (roundStarts 0 roles) keepRounds]? = some .user := by
  have inside : (roundStarts 0 roles).length - keepRounds < (roundStarts 0 roles).length := by omega
  have found := List.getElem?_eq_getElem inside
  have same : keepFrom (roundStarts 0 roles) keepRounds =
      (roundStarts 0 roles)[(roundStarts 0 roles).length - keepRounds] := by
    rw [keepFrom,if_pos ⟨many,some_⟩,List.getD_eq_getElem?_getD,found]
    rfl
  obtain ⟨far,user⟩ := roundStarts_get found
  rw [same]
  exact ⟨by omega,by simpa using user⟩

section
variable {first : Message μ β} {rest : List (Message μ β)}

theorem starts_user (user : (g first).1 = .user) :
    (roundStarts 0 ((first :: rest).map fun message => (g message).1)).getD 0 0 = 0 := by
  simp [roundStarts,user]

theorem compact_roomy (plain : Plain get g (first :: rest)) (user : (g first).1 = .user)
    (roomy : Roomy g cfg (first :: rest)) :
    compactMessages get cfg (first :: rest) = .ok (first :: rest) := by
  by_cases cheap : cost g (first :: rest) ≤ cfg.budgetTokens
  · exact compact_cheap plain cheap
  · have few := roomy.resolve_left cheap
    rw [← length_starts] at few
    cases rest with
    | nil =>
      unfold compactMessages
      rw [estimate_cost plain]
      simp [bind,Except.bind,cheap,pure,Except.pure]
    | cons second others =>
      rw [compact_dear plain cheap (by simp),lastRounds_user user,keepFrom_all few,starts_user user]
      rfl

theorem compact_crowded (plain : Plain get g (first :: rest)) (user : (g first).1 = .user)
    (crowded : ¬Roomy g cfg (first :: rest)) : ∃ front next back, rest = front ++ next :: back ∧
      (g next).1 = .user ∧ compactMessages get cfg (first :: rest) = .ok (next :: back) := by
  unfold Roomy at crowded
  simp only [not_or,Nat.not_le] at crowded
  obtain ⟨dear,some_,many⟩ := crowded
  have several : 1 < (first :: rest).length := by
    have counted : users g (first :: rest) ≤ (first :: rest).length := List.countP_le_length
    omega
  rw [← length_starts] at many
  obtain ⟨later,there⟩ := keepFrom_some some_ many
  rw [compact_dear plain (by omega) several,lastRounds_user user]
  generalize keepFrom _ cfg.keepRounds = from_ at later there
  rw [List.getElem?_map,Option.map_eq_some_iff] at there
  obtain ⟨next,found,role⟩ := there
  obtain ⟨n,rfl⟩ := Nat.exists_eq_add_of_lt later
  simp only [Nat.zero_add,List.getElem?_cons_succ,List.drop_succ_cons] at found ⊢
  have dropped : rest.drop n = next :: rest.drop (n + 1) := by
    obtain ⟨inside,rfl⟩ := List.getElem?_eq_some_iff.mp found
    exact List.drop_eq_getElem_cons inside
  refine ⟨rest.take n,next,rest.drop (n + 1),?_,role,?_⟩
  · rw [← dropped,List.take_append_drop]
  · rw [dropped]

theorem compact_single {system : Message μ β} (plain : Plain get g (system :: first :: rest))
    (prompt : (g system).1 = .system) (user : (g first).1 = .user)
    (alone : ∀ message ∈ rest, (g message).1 ≠ .user) :
    compactMessages get cfg (system :: first :: rest) = .ok (system :: first :: rest) := by
  by_cases cheap : cost g (system :: first :: rest) ≤ cfg.budgetTokens
  · exact compact_cheap plain cheap
  · have none_ : (roundStarts 1 (rest.map fun message => (g message).1)) = [] := by
      apply List.eq_nil_iff_length_eq_zero.mpr
      rw [length_roundStarts,List.countP_map,List.countP_eq_zero]
      intro message inside
      simpa using alone message inside
    have starts : roundStarts 0 ((first :: rest).map fun message => (g message).1) = [0] := by
      rw [List.map_cons,roundStarts,if_pos user,none_]
    have from_ : keepFrom [0] cfg.keepRounds = 0 := by
      unfold keepFrom
      split
      · rename_i fewer
        simp only [List.length_singleton] at fewer
        omega
      · rfl
    rw [compact_dear plain cheap (by simp)]
    simp only [lastRounds]
    rw [List.map_cons,prompt,List.head?_cons,if_pos rfl,List.drop_succ_cons,List.drop_zero,starts]
    simp [from_]

end

end HyprlandAgent.Brain
