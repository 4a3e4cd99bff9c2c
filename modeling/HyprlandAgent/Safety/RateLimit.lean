import HyprlandAgent.Effects
import HyprlandAgent.Transition
import HyprlandAgent.Safety.SlidingWindow
import Mathlib.Algebra.Order.Ring.Rat

-- Rate limiting for action execution: a sliding window for each kind of action.
namespace HyprlandAgent.Safety
open Transition SlidingWindow

-- (max_actions, window_seconds)
abbrev Limit := Int × Seconds

abbrev Limits := AList fun _ : String => Limit

def guiKinds : List String :=
  [ActionKind.typeText,.key,.mouseMove,.click,.scroll].map ActionKind.value

def defaultLimits : Limits :=
  let gui : Limits := guiKinds.foldl (fun limits kind => AList.insert kind (30,60) limits) ∅
  gui.insert ActionKind.terminalCommand.value (10,60)

def fallbackLimit : Limit := (60,60)

def setdefault (limits : Limits) (kind : String) (limit : Limit) : Limits :=
  if (limits.lookup kind).isSome then limits else limits.insert kind limit

def buildLimits : Option RateLimitConfig → Limits
  | none => defaultLimits
  | some cfg =>
    let gui : Limits :=
      guiKinds.foldl (fun limits kind => AList.insert kind (cfg.guiActionsPerMinute,60) limits) ∅
    let limits := gui.insert ActionKind.terminalCommand.value (cfg.terminalCommandsPerMinute,60)
    setdefault limits "other" (cfg.otherActionsPerMinute,60)

structure RateLimiter where
  limits : Limits
  buckets : String → Option (List Seconds) := fun _ => none

namespace RateLimiter

-- An empty table counts as none.
def new (limits : Option Limits) : RateLimiter where
  limits := match limits with
    | some table => if table.entries.isEmpty then defaultLimits else table
    | none => defaultLimits

def fromConfig (cfg : Option RateLimitConfig) : RateLimiter := new (some (buildLimits cfg))

variable (limiter : RateLimiter) (kind : String) (now : Seconds)

def window : Limit :=
  match limiter.limits.lookup kind with
  | some limit => limit
  | none => (limiter.limits.lookup "other").getD fallbackLimit

def setBucket (bucket : List Seconds) : RateLimiter :=
  { limiter with buckets := fun other => if other = kind then some bucket else limiter.buckets other }

-- The lock is free whenever a check asks for it: its holder does not await.
def check : RateLimiter × Bool :=
  let (maxActions,windowS) := limiter.window kind
  let cutoff := now - windowS
  let bucket := evict cutoff ((limiter.buckets kind).getD [])
  if maxActions ≤ bucket.length then (limiter.setBucket kind bucket,false)
  else (limiter.setBucket kind (bucket ++ [now]),true)

def reconfigure (cfg : RateLimitConfig) : RateLimiter where
  limits := buildLimits (some cfg)

def reset : RateLimiter := { limiter with buckets := fun _ => none }

abbrev bucket : List Seconds := (limiter.buckets kind).getD []

variable {limiter kind now}

theorem setBucket_bucket (bucket : List Seconds) : (limiter.setBucket kind bucket).bucket kind = bucket := by
  simp [RateLimiter.bucket,setBucket]

theorem setBucket_other {other : String} (different : other ≠ kind) (bucket : List Seconds) :
    (limiter.setBucket kind bucket).bucket other = limiter.bucket other := by
  simp [RateLimiter.bucket,setBucket,different]

@[simp] theorem setBucket_window {other : String} (bucket : List Seconds) :
    (limiter.setBucket kind bucket).window other = limiter.window other := rfl

theorem check_denied (full : (limiter.window kind).1 ≤
      (evict (now - (limiter.window kind).2) (limiter.bucket kind)).length) :
    limiter.check kind now =
      (limiter.setBucket kind (evict (now - (limiter.window kind).2) (limiter.bucket kind)),false) :=
  if_pos full

theorem check_allowed (room : ¬(limiter.window kind).1 ≤
      (evict (now - (limiter.window kind).2) (limiter.bucket kind)).length) :
    limiter.check kind now =
      (limiter.setBucket kind (evict (now - (limiter.window kind).2) (limiter.bucket kind) ++ [now]),true) :=
  if_neg room

theorem check_limits : (limiter.check kind now).1.limits = limiter.limits := by
  by_cases full : (limiter.window kind).1 ≤
      (evict (now - (limiter.window kind).2) (limiter.bucket kind)).length
  · rw [check_denied full]
    rfl
  · rw [check_allowed full]
    rfl

@[simp] theorem check_window {other : String} :
    (limiter.check kind now).1.window other = limiter.window other := by
  unfold window
  rw [check_limits]

end RateLimiter

-- What a limiter is made from, or reconfigured with.
inductive Settings where
  | given (limits : Option Limits)
  | config (cfg : Option RateLimitConfig)

namespace Settings

def limiter : Settings → RateLimiter
  | .given limits => .new limits
  | .config cfg => .fromConfig cfg

-- The table they stand for; none, or one without entries, leaves the defaults.
def limits : Settings → Limits
  | .given (some table) => if table = ∅ then defaultLimits else table
  | .given none => defaultLimits
  | .config cfg => buildLimits cfg

-- The limit of a kind: its own entry, else the one of all others, else the fallback.
def limit (settings : Settings) (kind : String) : Limit :=
  ((settings.limits.lookup kind).or (settings.limits.lookup "other")).getD fallbackLimit

end Settings

-- One limiter in use: what it was last set up with, and the checks since then or since
-- the last reset.
structure Checked where
  kind : String
  time : Seconds
  allowed : Bool

structure Usage where
  settings : Settings
  limiter : RateLimiter
  clock : Seconds
  checks : List Checked := []

def Usage.allowed (usage : Usage) (kind : String) : List Seconds :=
  (usage.checks.filter fun past => past.allowed && past.kind == kind).map (·.time)

inductive Call where
  | check (kind : String) (now : Seconds)
  | reset
  | reconfigure (cfg : RateLimitConfig)

def usage : System Usage Call where
  step := fun s call => match call with
    | .check kind now =>
      if s.clock ≤ now then
        let (limiter,allowed) := s.limiter.check kind now
        some { s with limiter := limiter, clock := now, checks := s.checks ++ [⟨kind,now,allowed⟩] }
      else none
    | .reset => some { s with limiter := s.limiter.reset, checks := [] }
    | .reconfigure cfg => some
      { s with settings := .config (some cfg), limiter := RateLimiter.reconfigure cfg, checks := [] }

def Usage.start (settings : Settings) (clock : Seconds) : Usage where
  settings := settings
  limiter := settings.limiter
  clock := clock

variable {s next : Usage} {kind : String} {now : Seconds} {call : Call}

theorem allowed_snoc {settings : Settings} {limiter : RateLimiter} {clock time : Seconds} {checks : List Checked}
    {allowed : Bool} {other : String} :
    Usage.allowed ⟨settings,limiter,clock,checks ++ [⟨kind,time,allowed⟩]⟩ other =
      Usage.allowed ⟨settings,limiter,clock,checks⟩ other ++ if allowed ∧ kind = other then [time] else [] := by
  by_cases counted : allowed ∧ kind = other
  · simp [Usage.allowed,List.filter_append,counted]
  · simp only [Usage.allowed,List.filter_append,List.map_append,if_neg counted]
    have skipped : (allowed && kind == other) = false := by simpa using counted
    simp [skipped]

theorem lookup_nonempty {table : Limits} {limit : Limit} (found : table.lookup kind = some limit) : table ≠ ∅ := by
  intro empty
  rw [empty,AList.lookup_empty] at found
  cases found

theorem new_limits {table : Limits} : (RateLimiter.new (some table)).limits =
    if table = ∅ then defaultLimits else table := by
  unfold RateLimiter.new
  have same : table.entries.isEmpty = true ↔ table = ∅ := by
    rw [List.isEmpty_iff]
    exact ⟨fun none_ => AList.ext none_,fun empty => by rw [empty]; rfl⟩
  simp only [same]

theorem buildLimits_nonempty (cfg : Option RateLimitConfig) : buildLimits cfg ≠ ∅ := by
  cases cfg with
  | none =>
    have limited : (buildLimits none).lookup ActionKind.terminalCommand.value = some _ := AList.lookup_insert _
    exact lookup_nonempty limited
  | some cfg =>
    unfold buildLimits setdefault
    dsimp only
    split
    · exact lookup_nonempty (AList.lookup_insert _)
    · exact lookup_nonempty (AList.lookup_insert _)

theorem Settings.limiter_limits (settings : Settings) : settings.limiter.limits = settings.limits := by
  cases settings with
  | given limits =>
    cases limits with
    | none => rfl
    | some table => exact new_limits
  | config cfg => exact new_limits.trans (if_neg (buildLimits_nonempty cfg))

theorem lookup_all {kinds : List String} {limit : Limit} {table : Limits} :
    (kinds.foldl (fun limits kind => AList.insert kind limit limits) table).lookup kind =
      if kind ∈ kinds then some limit else table.lookup kind := by
  induction kinds generalizing table with
  | nil => rfl
  | cons first rest ih =>
    rw [List.foldl_cons,ih]
    by_cases later : kind ∈ rest
    · rw [if_pos later,if_pos (List.mem_cons_of_mem _ later)]
    · rw [if_neg later]
      by_cases same : kind = first
      · rw [same,AList.lookup_insert,if_pos List.mem_cons_self]
      · rw [AList.lookup_insert_ne same,if_neg (List.not_mem_cons_of_ne_of_not_mem same later)]

theorem limit_config (cfg : RateLimitConfig) (kind : String) : (Settings.config (some cfg)).limit kind =
    if kind ∈ guiKinds then (cfg.guiActionsPerMinute,60)
    else if kind = ActionKind.terminalCommand.value then (cfg.terminalCommandsPerMinute,60)
    else (cfg.otherActionsPerMinute,60) := by
  have terminal : ActionKind.terminalCommand.value ∉ guiKinds := by decide
  have other : "other" ∉ guiKinds := by decide
  have apart : "other" ≠ ActionKind.terminalCommand.value := by decide
  have unset : ((guiKinds.foldl (fun limits kind => AList.insert kind (cfg.guiActionsPerMinute,60) limits)
      (∅ : Limits)).insert ActionKind.terminalCommand.value (cfg.terminalCommandsPerMinute,60)).lookup "other" =
        none := by
    rw [AList.lookup_insert_ne apart,lookup_all,if_neg other,AList.lookup_empty]
  have limits : (Settings.config (some cfg)).limits =
      ((guiKinds.foldl (fun limits kind => AList.insert kind (cfg.guiActionsPerMinute,60) limits)
        (∅ : Limits)).insert ActionKind.terminalCommand.value (cfg.terminalCommandsPerMinute,60)).insert "other"
          (cfg.otherActionsPerMinute,60) := by
    unfold Settings.limits buildLimits setdefault
    dsimp only
    rw [unset]
    rfl
  rw [Settings.limit,limits,AList.lookup_insert]
  by_cases rest : kind = "other"
  · rw [rest,AList.lookup_insert,if_neg other,if_neg apart]
    rfl
  rw [AList.lookup_insert_ne rest]
  by_cases command : kind = ActionKind.terminalCommand.value
  · rw [command,AList.lookup_insert,if_neg terminal,if_pos rfl]
    rfl
  rw [AList.lookup_insert_ne command,lookup_all,if_neg command]
  split
  · rfl
  · rfl

structure Sound (s : Usage) : Prop where
  held : s.limiter.limits = s.settings.limits
  tracks : ∀ kind, Tracks (s.limiter.window kind).2 s.clock (s.limiter.bucket kind) (s.allowed kind)
  sparse : ∀ kind, Sparse (s.limiter.window kind).2 (s.limiter.window kind).1 (s.allowed kind)

theorem held_window (held : s.limiter.limits = s.settings.limits) (kind : String) :
    s.limiter.window kind = s.settings.limit kind := by
  unfold RateLimiter.window Settings.limit
  rw [held]
  cases s.settings.limits.lookup kind <;> rfl

theorem sound_fresh {settings : Settings} {limiter : RateLimiter} {clock : Seconds}
    (held : limiter.limits = settings.limits) (empty : ∀ kind, limiter.buckets kind = none) :
    Sound ⟨settings,limiter,clock,[]⟩ := by
  refine ⟨held,?_,?_⟩
  · intro kind
    simp only [RateLimiter.bucket,empty,Option.getD_none]
    exact .nil
  · intro kind
    exact .nil

theorem evicted_recent (sound : Sound s) (later : s.clock ≤ now) (kind : String) :
    evict (now - (s.limiter.window kind).2) (s.limiter.bucket kind) =
      recent (s.limiter.window kind).2 now (s.allowed kind) :=
  ((sound.tracks kind).later later).evict.1

theorem check_exact (sound : Sound s) (later : s.clock ≤ now) (kind : String) :
    (s.limiter.check kind now).2 = true ↔
      ((recent (s.limiter.window kind).2 now (s.allowed kind)).length : Int) < (s.limiter.window kind).1 := by
  rw [← evicted_recent sound later kind]
  by_cases full : (s.limiter.window kind).1 ≤
      (evict (now - (s.limiter.window kind).2) (s.limiter.bucket kind)).length
  · rw [RateLimiter.check_denied full]
    simp [full]
  · rw [RateLimiter.check_allowed full]
    simpa using full

theorem check_sound (sound : Sound s) (later : s.clock ≤ now) :
    Sound ⟨s.settings,(s.limiter.check kind now).1,now,s.checks ++ [⟨kind,now,(s.limiter.check kind now).2⟩]⟩ := by
  have untouched (other : String) : Tracks (s.limiter.window other).2 now (s.limiter.bucket other) (s.allowed other) :=
    (sound.tracks other).later later
  have kept := (untouched kind).evict.2
  have same (other : String) :
      Usage.allowed ⟨s.settings,(s.limiter.check kind now).1,now,s.checks⟩ other = s.allowed other := rfl
  refine ⟨RateLimiter.check_limits.trans sound.held,?_,?_⟩
  · intro other
    rw [RateLimiter.check_window,allowed_snoc,same]
    by_cases full : (s.limiter.window kind).1 ≤
        (evict (now - (s.limiter.window kind).2) (s.limiter.bucket kind)).length
    · rw [RateLimiter.check_denied full]
      simp only [Bool.false_eq_true,false_and,if_false,List.append_nil]
      by_cases this : other = kind
      · subst this
        rw [RateLimiter.setBucket_bucket]
        exact kept
      · rw [RateLimiter.setBucket_other this]
        exact untouched other
    · rw [RateLimiter.check_allowed full]
      by_cases this : other = kind
      · subst this
        rw [RateLimiter.setBucket_bucket]
        simpa using kept.append
      · rw [RateLimiter.setBucket_other this,if_neg (by simpa using Ne.symm this),List.append_nil]
        exact untouched other
  · intro other
    rw [RateLimiter.check_window,allowed_snoc,same]
    split
    · rename_i counted
      obtain ⟨allowed,rfl⟩ := counted
      have past : ∀ time ∈ s.allowed kind, time ≤ now := (untouched kind).past
      exact (sound.sparse kind).snoc past ((check_exact sound later kind).mp allowed)
    · rw [List.append_nil]
      exact sound.sparse other

theorem usage_sound (sound : Sound s) (stepped : usage.step s call = some next) : Sound next := by
  cases call with
  | check kind now =>
    by_cases later : s.clock ≤ now
    · simp only [usage,if_pos later,Option.some.injEq] at stepped
      rw [← stepped]
      exact check_sound sound later
    · simp [usage,later] at stepped
  | reset =>
    cases stepped
    exact sound_fresh sound.held fun _ => rfl
  | reconfigure cfg =>
    cases stepped
    exact sound_fresh rfl fun _ => rfl

-- The limiter decides by the checks it allowed, of this kind and in this window, against
-- the limit of the table it was last set up with, and no window of that length has more of
-- them than this limit.
theorem check_by_history {settings : Settings} {clock : Seconds}
    (reached : Reachable usage (.start settings clock) s) (later : s.clock ≤ now) (kind : String) :
    ((s.limiter.check kind now).2 = true ↔
      ((recent (s.settings.limit kind).2 now (s.allowed kind)).length : Int) < (s.settings.limit kind).1) ∧
    ∀ time, ((recent (s.settings.limit kind).2 time (s.allowed kind)).length : Int) ≤
      max 0 (s.settings.limit kind).1 := by
  have sound : Sound s := reached.invariant (sound_fresh settings.limiter_limits fun _ => by cases settings <;> rfl)
    fun _ _ _ sound _ stepped => usage_sound sound stepped
  rw [← held_window sound.held kind]
  exact ⟨check_exact sound later kind,fun time => (sound.sparse kind).bounded time⟩

theorem checked_again : ∃ s, Reachable usage (.start (.given (some (AList.singleton "click" (5,60)))) 0) s ∧
    s.allowed "click" = [1] ∧ (s.limiter.check "click" 60).2 = false ∧ (s.limiter.check "click" 61).2 = true := by
  have played : (usage.play (.start (.given (some (AList.singleton "click" (5,60)))) 0)
      [.check "click" 0,.reconfigure ⟨1,10,60⟩,.check "click" 1]).any
      (fun s => s.clock == 1 && s.allowed "click" == [1] && s.settings.limit "click" == (1,60)) = true := by
    decide
  obtain ⟨s,reached,shown⟩ := System.found played
  simp only [Bool.and_eq_true,beq_iff_eq] at shown
  obtain ⟨⟨clock,allowed⟩,limit⟩ := shown
  have soon : s.clock ≤ 60 := by rw [clock]; decide
  have later : s.clock ≤ 61 := by rw [clock]; decide
  refine ⟨s,reached,allowed,?_,(check_by_history reached later "click").1.mpr ?_⟩
  · rw [← Bool.not_eq_true,(check_by_history reached soon "click").1,allowed,limit]
    decide +kernel
  · rw [allowed,limit]
    decide +kernel

end HyprlandAgent.Safety
