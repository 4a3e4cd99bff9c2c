import Mathlib.Algebra.Order.Field.Basic
import Mathlib.Algebra.Order.Ring.Rat
import Mathlib.Tactic.NormNum
import HyprlandAgent.Sql.Grouped
import HyprlandAgent.Store.References

-- Episodic memory over time: episodes are stored, found again by likeness, refreshed by
-- being recalled, and pruned once they have faded.
namespace HyprlandAgent.Recall
open Transition References
open Sql.Keyed hiding insert

-- `vec_distance_cosine` of two embeddings, and `POW(0.5, x)`.
structure Host (ε : Type) where
  distance : ε → ε → Rat
  pow : Rat → Rat

structure Episode where
  runId : RunId
  task : String
  outcome : String
  summary : String
  contextClass : Option String
  distance : Rat
  deriving DecidableEq, Repr

-- What was done to the table `episodes`, in order.
inductive Entry where
  | stored (run : RunId) (createdAt : Seconds)
  | accessed (run : RunId) (now : Seconds)
  | pruned (threshold : Rat) (halfLifeDays : Nat) (now : Seconds)
  deriving DecidableEq

-- `touching` holds for each `recall` under way the episodes it still has to touch; `log`
-- is history.
structure State (ε : Type) where
  episodes : List EpisodeRow := []
  vecs : List (RunId × ε) := []
  touching : List (List RunId) := []
  log : List Entry := []

-- `touchFails` is an update that raises, which is logged and passed over; `leaves` is
-- the cancellation of a recall.
inductive Event (ε : Type) where
  | insertEpisode (episode : EpisodeRow)
  | insertVec (run : RunId) (embedding : ε)
  | recalls (embedding : ε) (k : Int) (filterFailure : Bool)
  | touch (i : Nat) (now : Seconds)
  | touchFails (i : Nat)
  | leaves (i : Nat)
  | prune (threshold : Rat) (halfLifeDays : Nat) (now : Seconds)

section
variable {ε : Type} (h : Host ε) (s : State ε)

def excluded (exclude : Option String) (row : EpisodeRow) : Bool := exclude.any fun outcome => row.outcome = outcome

def pairs (exclude : Option String) : List ((RunId × ε) × EpisodeRow) :=
  (join Prod.fst EpisodeRow.runId s.vecs s.episodes).filter fun pair => !excluded exclude pair.2

def queryEpisodesByVec (embedding : ε) (k : Int) (exclude : Option String) : List ((RunId × ε) × EpisodeRow) :=
  limited k (ascending (fun pair => h.distance pair.1.2 embedding) (pairs s exclude))

def episodeOf (embedding : ε) (pair : (RunId × ε) × EpisodeRow) : Episode :=
  ⟨pair.2.runId,pair.2.task,pair.2.outcome,pair.2.summary,pair.2.contextClass,h.distance pair.1.2 embedding⟩

def EpisodicMemory.recall (embedding : ε) (k : Int) (filterFailure : Bool) : List Episode :=
  (queryEpisodesByVec h s embedding k (if filterFailure then some "failure" else none)).map (episodeOf h embedding)

-- `strftime('%s','now')` counts whole seconds.
def touched (now : Seconds) (row : EpisodeRow) : EpisodeRow :=
  { row with lastAccessedAt := some (now.floor : Rat), decayScore := some 1 }

def rescored (halfLifeDays : Nat) (now : Seconds) (row : EpisodeRow) : EpisodeRow :=
  { row with decayScore := row.score h.pow halfLifeDays now }

def step : Event ε → Option (State ε)
  | .insertEpisode episode => some
    { s with
      episodes := replace EpisodeRow.runId { episode with lastAccessedAt := none, decayScore := some 1 } s.episodes
      log := s.log ++ [.stored episode.runId episode.createdAt] }
  | .insertVec run embedding => some { s with vecs := replace Prod.fst (run,embedding) s.vecs }
  | .recalls embedding k filterFailure => some
    { s with touching := s.touching ++ [(EpisodicMemory.recall h s embedding k filterFailure).map Episode.runId] }
  | .touch i now =>
    match s.touching[i]? with
    | some (run :: rest) => some
      { s with
        episodes := update EpisodeRow.runId run (touched now) s.episodes
        touching := s.touching.set i rest
        log := s.log ++ [.accessed run (now.floor : Rat)] }
    | _ => none
  | .touchFails i =>
    match s.touching[i]? with
    | some (_ :: rest) => some { s with touching := s.touching.set i rest }
    | _ => none
  | .leaves i => if i < s.touching.length then some { s with touching := s.touching.set i [] } else none
  | .prune threshold halfLifeDays now => some
    { s with
      episodes := (s.episodes.map (rescored h halfLifeDays now)).filter fun row => !below threshold row.decayScore
      log := s.log ++ [.pruned threshold halfLifeDays now] }

end

def memory {ε : Type} (h : Host ε) : System (State ε) (Event ε) := ⟨step h⟩

def lastAccess (run : RunId) (log : List Entry) : Option Seconds :=
  (log.filterMap fun
    | .accessed other now => if other = run then some now else none
    | _ => none).getLast?

def storing (run : RunId) : Entry → Bool
  | .stored other _ => other = run
  | _ => false

def refreshing (run : RunId) : Entry → Bool
  | .accessed other _ => other = run
  | _ => false

structure Since (pow : Rat → Rat) (run : RunId) (createdAt : Seconds) (after : List Entry) : Prop where
  last : ∀ entry ∈ after, storing run entry = false
  spared : ∀ earlier threshold halfLifeDays now later,
    after = earlier ++ .pruned threshold halfLifeDays now :: later →
    decayed pow threshold halfLifeDays now { createdAt := createdAt, lastAccessedAt := lastAccess run earlier } = false

def Remembered (pow : Rat → Rat) (run : RunId) (log : List Entry) : Prop :=
  ∃ before createdAt after, log = before ++ .stored run createdAt :: after ∧ Since pow run createdAt after

section
variable {pow : Rat → Rat} {run : RunId} {createdAt now : Seconds} {after log : List Entry} {entry : Entry}

theorem lastAccess_snoc (other : refreshing run entry = false) :
    lastAccess run (log ++ [entry]) = lastAccess run log := by
  unfold lastAccess
  rw [List.filterMap_append]
  cases entry with
  | accessed who now => simp [of_decide_eq_false other]
  | _ => simp

theorem lastAccess_accessed : lastAccess run (log ++ [.accessed run now]) = some now := by
  unfold lastAccess
  rw [List.filterMap_append]
  simp

theorem Since.fresh : Since pow run createdAt [] where
  last := nofun
  spared earlier _ _ _ _ whole := by
    cases earlier <;> cases whole

theorem Since.snoc (since : Since pow run createdAt after) (other : storing run entry = false)
    (spared : ∀ threshold halfLifeDays now, entry = .pruned threshold halfLifeDays now →
      decayed pow threshold halfLifeDays now { createdAt := createdAt, lastAccessedAt := lastAccess run after } = false) :
    Since pow run createdAt (after ++ [entry]) := by
  constructor
  · intro found inside
    rcases List.mem_append.mp inside with before | new
    · exact since.last found before
    · rw [List.mem_singleton.mp new]
      exact other
  · intro earlier threshold halfLifeDays now later whole
    rcases List.eq_nil_or_concat later with rfl | ⟨front,final,rfl⟩
    · obtain ⟨rfl,⟨⟩⟩ := List.append_inj' whole rfl
      exact spared _ _ _ rfl
    · rw [List.concat_eq_append,← List.cons_append,← List.append_assoc] at whole
      exact since.spared earlier threshold halfLifeDays now front (List.append_inj' whole rfl).1

theorem Since.front (since : Since pow run createdAt (after ++ [entry])) : Since pow run createdAt after where
  last found inside := since.last found (List.mem_append_left _ inside)
  spared earlier threshold halfLifeDays now later whole :=
    since.spared earlier threshold halfLifeDays now (later ++ [entry]) (by rw [whole]; simp)

theorem split_snoc {before : List Entry} (whole : log ++ [entry] = before ++ .stored run createdAt :: after) :
    (before = log ∧ entry = .stored run createdAt ∧ after = []) ∨
      ∃ front, after = front ++ [entry] ∧ log = before ++ .stored run createdAt :: front := by
  rcases List.eq_nil_or_concat after with rfl | ⟨front,final,rfl⟩
  · obtain ⟨rfl,⟨⟩⟩ := List.append_inj' whole rfl
    exact .inl ⟨rfl,rfl,rfl⟩
  · rw [List.concat_eq_append,← List.cons_append,← List.append_assoc] at whole
    obtain ⟨same,⟨⟩⟩ := List.append_inj' whole rfl
    exact .inr ⟨front,List.concat_eq_append,same⟩

end

section
variable {ε : Type} {h : Host ε} {s next : State ε} {run : RunId} {row : EpisodeRow} {entry : Entry}

def Bears (h : Host ε) (log : List Entry) (row : EpisodeRow) : Prop :=
  ∃ before after, log = before ++ .stored row.runId row.createdAt :: after ∧
    Since h.pow row.runId row.createdAt after ∧ row.lastAccessedAt = lastAccess row.runId after

structure Told (h : Host ε) (s : State ε) : Prop where
  unique : Unique EpisodeRow.runId s.episodes
  vecs : Unique Prod.fst s.vecs
  bears : ∀ row ∈ s.episodes, Bears h s.log row
  kept : ∀ run before createdAt after, s.log = before ++ .stored run createdAt :: after →
    Since h.pow run createdAt after → ∃ row ∈ s.episodes,
      row.runId = run ∧ row.createdAt = createdAt ∧ row.lastAccessedAt = lastAccess run after

theorem Bears.snoc {row now : EpisodeRow} (bears : Bears h log row) (same : now.runId = row.runId)
    (created : now.createdAt = row.createdAt) (other : storing row.runId entry = false)
    (spared : ∀ threshold halfLifeDays now, entry = .pruned threshold halfLifeDays now →
      decayed h.pow threshold halfLifeDays now row.toDecay = false)
    (accessed : ∀ after, row.lastAccessedAt = lastAccess row.runId after →
      now.lastAccessedAt = lastAccess row.runId (after ++ [entry])) :
    Bears h (log ++ [entry]) now := by
  obtain ⟨before,after,whole,since,last⟩ := bears
  refine ⟨before,after ++ [entry],?_,?_,?_⟩
  · rw [whole,same,created]
    simp
  · rw [same,created]
    refine since.snoc other fun threshold halfLifeDays at_ pruned => ?_
    have faded := spared threshold halfLifeDays at_ pruned
    unfold decayed Decay.score at faded ⊢
    rw [last] at faded
    exact faded
  · rw [same]
    exact accessed after last

theorem told_insert (told : Told h s) (episode : EpisodeRow) :
    Told h { s with
      episodes := replace EpisodeRow.runId { episode with lastAccessedAt := none, decayScore := some 1 } s.episodes
      log := s.log ++ [.stored episode.runId episode.createdAt] } := by
  refine ⟨told.unique.replace,told.vecs,?_,?_⟩
  · intro row inside
    rcases List.mem_append.mp inside with before | new
    · obtain ⟨there,different⟩ := List.mem_filter.mp before
      have different : row.runId ≠ episode.runId := of_decide_eq_true different
      refine (told.bears row there).snoc rfl rfl (decide_eq_false different.symm) nofun fun after last => ?_
      rw [last,lastAccess_snoc rfl]
    · rw [List.mem_singleton.mp new]
      exact ⟨s.log,[],rfl,.fresh,rfl⟩
  · intro run before createdAt after whole since
    rcases split_snoc whole with ⟨_,⟨⟩,rfl⟩ | ⟨front,rfl,shorter⟩
    · exact ⟨_,List.mem_append_right _ List.mem_cons_self,rfl,rfl,rfl⟩
    · obtain ⟨row,there,named,created,last⟩ := told.kept run before createdAt front shorter since.front
      have other := since.last _ (List.mem_append_right _ List.mem_cons_self)
      refine ⟨row,List.mem_append_left _ (List.mem_filter.mpr ⟨there,decide_eq_true ?_⟩),named,created,?_⟩
      · rw [named]
        exact fun same => of_decide_eq_false other same.symm
      · rw [last,lastAccess_snoc rfl]

theorem told_touch (told : Told h s) (run : RunId) (now : Seconds) (touching : List (List RunId)) :
    Told h { s with
      episodes := update EpisodeRow.runId run (touched now) s.episodes
      touching := touching
      log := s.log ++ [.accessed run (now.floor : Rat)] } := by
  refine ⟨told.unique.update fun _ => rfl,told.vecs,?_,?_⟩
  · intro row inside
    obtain ⟨old,there,rfl⟩ := List.mem_map.mp inside
    split
    · rename_i same
      refine (told.bears old there).snoc rfl rfl rfl (fun _ _ _ pruned => by cases pruned) fun after _ => ?_
      rw [← same,lastAccess_accessed]
      rfl
    · rename_i different
      refine (told.bears old there).snoc rfl rfl rfl (fun _ _ _ pruned => by cases pruned) fun after last => ?_
      rw [last,lastAccess_snoc]
      exact decide_eq_false fun same => different same.symm
  · intro other before createdAt after whole since
    rcases split_snoc whole with ⟨_,⟨⟩,_⟩ | ⟨front,rfl,shorter⟩
    obtain ⟨row,there,named,created,last⟩ := told.kept other before createdAt front shorter since.front
    refine ⟨_,List.mem_map_of_mem there,?_⟩
    split
    · rename_i same
      refine ⟨named,created,?_⟩
      rw [← named,same,lastAccess_accessed]
      rfl
    · rename_i different
      refine ⟨named,created,?_⟩
      rw [last,lastAccess_snoc]
      exact decide_eq_false fun same => different (named.trans same.symm)

theorem told_prune (told : Told h s) (threshold : Rat) (halfLifeDays : Nat) (now : Seconds) :
    Told h { s with
      episodes := (s.episodes.map (rescored h halfLifeDays now)).filter fun row => !below threshold row.decayScore
      log := s.log ++ [.pruned threshold halfLifeDays now] } := by
  refine ⟨?_,told.vecs,?_,?_⟩
  · have same : (s.episodes.map (rescored h halfLifeDays now)).map EpisodeRow.runId =
        s.episodes.map EpisodeRow.runId := by
      rw [List.map_map]
      rfl
    have unique := told.unique
    unfold Sql.Keyed.Unique at unique ⊢
    rw [← same] at unique
    exact (List.filter_sublist.map EpisodeRow.runId).nodup unique
  · intro row inside
    obtain ⟨there,spared⟩ := List.mem_filter.mp inside
    obtain ⟨old,before,rfl⟩ := List.mem_map.mp there
    refine (told.bears old before).snoc rfl rfl rfl ?_ fun after last => ?_
    · rintro _ _ _ ⟨⟩
      rw [Bool.not_eq_true'] at spared
      exact spared
    · exact Eq.trans last (lastAccess_snoc rfl).symm
  · intro run before createdAt after whole since
    rcases split_snoc whole with ⟨_,⟨⟩,_⟩ | ⟨front,rfl,shorter⟩
    obtain ⟨row,there,named,created,last⟩ := told.kept run before createdAt front shorter since.front
    refine ⟨rescored h halfLifeDays now row,?_,named,created,?_⟩
    · refine List.mem_filter.mpr ⟨List.mem_map_of_mem there,?_⟩
      have spared := since.spared front threshold halfLifeDays now [] rfl
      unfold decayed Decay.score at spared
      rw [Bool.not_eq_true',rescored,Decay.score,last,created]
      exact spared
    · exact Eq.trans last (lastAccess_snoc rfl).symm

theorem told_step (told : Told h s) {event : Event ε} (stepped : step h s event = some next) : Told h next := by
  cases event with
  | insertEpisode episode =>
    cases stepped
    exact told_insert told episode
  | insertVec run embedding =>
    cases stepped
    exact { told with vecs := told.vecs.replace }
  | recalls embedding k filterFailure =>
    cases stepped
    exact ⟨told.unique,told.vecs,told.bears,told.kept⟩
  | touch i now =>
    simp only [step] at stepped
    split at stepped
    · cases stepped
      exact told_touch told _ now _
    · cases stepped
  | touchFails i =>
    simp only [step] at stepped
    split at stepped
    · cases stepped
      exact ⟨told.unique,told.vecs,told.bears,told.kept⟩
    · cases stepped
  | leaves i =>
    simp only [step] at stepped
    split at stepped
    · cases stepped
      exact ⟨told.unique,told.vecs,told.bears,told.kept⟩
    · cases stepped
  | prune threshold halfLifeDays now =>
    cases stepped
    exact told_prune told threshold halfLifeDays now

theorem told_start : Told h {} := by
  refine ⟨List.nodup_nil,List.nodup_nil,nofun,?_⟩
  intro run before createdAt after whole
  cases before <;> cases whole

theorem told_reachable (run : Reachable (memory h) {} s) : Told h s := by
  apply run.invariant told_start
  intro s event next told _ stepped
  exact told_step told stepped

theorem remembered (reached : Reachable (memory h) {} s) (run : RunId) :
    (∃ row ∈ s.episodes, row.runId = run) ↔ Remembered h.pow run s.log := by
  have told := told_reachable reached
  constructor
  · rintro ⟨row,inside,rfl⟩
    obtain ⟨before,after,whole,since,_⟩ := told.bears row inside
    exact ⟨before,row.createdAt,after,whole,since⟩
  · rintro ⟨before,createdAt,after,whole,since⟩
    obtain ⟨row,inside,named,_⟩ := told.kept run before createdAt after whole since
    exact ⟨row,inside,named⟩

-- No pruning comes later than `patience` after the last refresh, nor asks for more than
-- what a memory of that age has left.
def InUse (pow : Rat → Rat) (run : RunId) (createdAt patience : Seconds) (after : List Entry) : Prop :=
  ∀ earlier threshold (halfLifeDays : Nat) now later,
    after = earlier ++ .pruned threshold halfLifeDays now :: later → halfLifeDays ≠ 0 →
      now - (lastAccess run earlier).getD createdAt ≤ patience ∧ threshold ≤ pow (patience / (halfLifeDays * 86400))

theorem InUse.since {pow : Rat → Rat} {createdAt patience : Seconds} {after : List Entry}
    (used : InUse pow run createdAt patience after) (fading : ∀ x y, x ≤ y → pow y ≤ pow x)
    (last : ∀ entry ∈ after, storing run entry = false) : Since pow run createdAt after := by
  refine ⟨last,?_⟩
  intro earlier threshold halfLifeDays now later whole
  unfold decayed Decay.score
  split
  · rfl
  · rename_i some_
    obtain ⟨recent,asked⟩ := used earlier threshold halfLifeDays now later whole some_
    have days : (0 : Rat) < halfLifeDays * 86400 :=
      mul_pos (Nat.cast_pos.mpr (Nat.pos_of_ne_zero some_)) (by norm_num)
    have age : (now - (lastAccess run earlier).getD createdAt) / (halfLifeDays * 86400) ≤
        patience / (halfLifeDays * 86400) := div_le_div_of_nonneg_right recent days.le
    exact decide_eq_false (not_lt.mpr (asked.trans (fading _ _ age)))

-- A run has its episode exactly as long as no pruning since it was last stored found it
-- faded, counting from its last recall that was written down, or else from its storing;
-- so one that is recalled often enough is never pruned.
theorem episodes_remembered (reached : Reachable (memory h) {} s) (run : RunId) :
    ((∃ row ∈ s.episodes, row.runId = run) ↔ Remembered h.pow run s.log) ∧
      ((∀ x y, x ≤ y → h.pow y ≤ h.pow x) → ∀ before createdAt after patience,
        s.log = before ++ .stored run createdAt :: after → (∀ entry ∈ after, storing run entry = false) →
        InUse h.pow run createdAt patience after → ∃ row ∈ s.episodes, row.runId = run) := by
  refine ⟨remembered reached run,?_⟩
  intro fading before createdAt after patience whole last used
  exact (remembered reached run).mpr ⟨before,createdAt,after,whole,used.since fading last⟩

structure Nearest (h : Host ε) (s : State ε) (embedding : ε) (k : Int) (filterFailure : Bool)
    (episodes : List Episode) : Prop where
  stored : ∀ episode ∈ episodes, ∃ row ∈ s.episodes, ∃ vec, (row.runId,vec) ∈ s.vecs ∧
    episode = episodeOf h embedding ((row.runId,vec),row) ∧ (filterFailure = true → row.outcome ≠ "failure")
  once : (episodes.map Episode.runId).Nodup
  sorted : episodes.Pairwise fun one two => one.distance ≤ two.distance
  short : 0 ≤ k → episodes.length ≤ k.toNat
  whole : ∀ row ∈ s.episodes, ∀ vec, (row.runId,vec) ∈ s.vecs → (filterFailure = true → row.outcome ≠ "failure") →
    episodeOf h embedding ((row.runId,vec),row) ∈ episodes ∨
      0 ≤ k ∧ episodes.length = k.toNat ∧ ∀ episode ∈ episodes, episode.distance ≤ h.distance vec embedding

theorem spared_iff (filterFailure : Bool) (row : EpisodeRow) :
    (!excluded (if filterFailure then some "failure" else none) row) = true ↔
      (filterFailure = true → row.outcome ≠ "failure") := by
  cases filterFailure <;> simp [excluded]

theorem mem_pairs {exclude : Option String} {pair : (RunId × ε) × EpisodeRow} : pair ∈ pairs s exclude ↔
    (pair.1 ∈ s.vecs ∧ pair.2 ∈ s.episodes ∧ pair.2.runId = pair.1.1) ∧ (!excluded exclude pair.2) = true := by
  rw [pairs,List.mem_filter]
  exact and_congr_left' mem_join

-- In every state that operations on the memory can reach, a recall answers the nearest
-- episodes that are stored and wanted.
theorem recall_nearest (reached : Reachable (memory h) {} s) (embedding : ε) (k : Int) (filterFailure : Bool) :
    Nearest h s embedding k filterFailure (EpisodicMemory.recall h s embedding k filterFailure) := by
  have told := told_reachable reached
  have from_ : queryEpisodesByVec h s embedding k (if filterFailure then some "failure" else none) <+:
      ascending (fun pair => h.distance pair.1.2 embedding) (pairs s (if filterFailure then some "failure" else none)) :=
    limited_initial ..
  constructor
  · intro episode inside
    obtain ⟨⟨⟨run,vec⟩,row⟩,queried,rfl⟩ := List.mem_map.mp inside
    obtain ⟨⟨indexed,there,named⟩,spared⟩ := mem_pairs.mp (mem_descending.mp (from_.subset queried))
    obtain rfl : row.runId = run := named
    exact ⟨row,there,vec,indexed,rfl,(spared_iff filterFailure row).mp spared⟩
  · let named (pair : (RunId × ε) × EpisodeRow) := pair.2.runId
    have once : ((pairs s (if filterFailure then some "failure" else none)).map named).Nodup :=
      (List.filter_sublist.map named).nodup (join_keys told.vecs told.unique)
    have kept := (from_.sublist.map named).nodup ((descending_perm.map named).nodup_iff.mpr once)
    rw [EpisodicMemory.recall,List.map_map]
    exact kept
  · rw [EpisodicMemory.recall,List.pairwise_map]
    exact ascending_sorted.sublist from_.sublist
  · intro bounded
    rw [EpisodicMemory.recall,List.length_map,queryEpisodesByVec,limited,if_neg (Int.not_lt.mpr bounded)]
    exact List.length_take_le ..
  · intro row there vec indexed spared
    have inside : ((row.runId,vec),row) ∈ pairs s (if filterFailure then some "failure" else none) :=
      mem_pairs.mpr ⟨⟨indexed,there,rfl⟩,(spared_iff filterFailure row).mpr spared⟩
    by_cases kept : ((row.runId,vec),row) ∈
        queryEpisodesByVec h s embedding k (if filterFailure then some "failure" else none)
    · exact .inl (List.mem_map_of_mem kept)
    · obtain ⟨bounded,full,nearer⟩ := limited_cut inside kept
      refine .inr ⟨bounded,?_,?_⟩
      · rw [EpisodicMemory.recall,List.length_map]
        exact full
      · intro episode listed
        obtain ⟨pair,queried,rfl⟩ := List.mem_map.mp listed
        exact nearer pair queried

end

def lineHost : Host Rat where
  distance one two := if one ≤ two then two - one else one - two
  pow x := mkRat 1 (2 ^ x.floor.toNat)

def episode (run : RunId) : EpisodeRow := ⟨{ createdAt := 0 },run,"tidy up","success","2 actions",none,"[]"⟩

def day : Seconds := 86400

def recalledOnce : List (Event Rat) :=
  [.insertEpisode (episode "a"),.insertEpisode (episode "b"),.insertVec "a" 1,.insertVec "b" 3,.recalls 0 1 true,
    .touch 0 (90 * day),.prune (1 / 10) 90 (360 * day)]

theorem lineHost_fading (x y : Rat) (later : x ≤ y) : lineHost.pow y ≤ lineHost.pow x := by
  have halves : x.floor.toNat ≤ y.floor.toNat := Int.toNat_le_toNat (Rat.floor_monotone later)
  have more : (2 : Rat) ^ x.floor.toNat ≤ 2 ^ y.floor.toNat := pow_le_pow_right₀ (by norm_num) halves
  simp only [lineHost,Rat.mkRat_eq_div]
  push_cast
  exact one_div_le_one_div_of_le (by positivity) more

def recalledAfter : List Entry := [.stored "b" 0,.accessed "a" (90 * day),.pruned (1 / 10) 90 (360 * day)]

theorem recalled_inUse : InUse lineHost.pow "a" 0 (270 * day) recalledAfter := by
  intro earlier threshold halfLifeDays now later whole _
  obtain _ | ⟨first,_ | ⟨second,_ | ⟨third,rest⟩⟩⟩ := earlier
  · cases whole
  · cases whole
  · cases whole
    decide +kernel
  · simp [recalledAfter] at whole

theorem episodes_remembered_once : ∃ s : State Rat, s.episodes.map EpisodeRow.runId = ["a"] ∧
    Remembered lineHost.pow "a" s.log ∧ ¬Remembered lineHost.pow "b" s.log := by
  have played : ((memory lineHost).play {} recalledOnce).any (fun s =>
      s.episodes.map EpisodeRow.runId == ["a"] && s.log == .stored "a" 0 :: recalledAfter) = true := by
    decide +kernel
  obtain ⟨s,run,shown⟩ := System.found played
  rw [Bool.and_eq_true,beq_iff_eq,beq_iff_eq] at shown
  obtain ⟨listed,logged⟩ := shown
  refine ⟨s,listed,(episodes_remembered run "a").1.mp ?_,?_⟩
  · exact (episodes_remembered run "a").2 lineHost_fading [] 0 recalledAfter (270 * day) logged (by decide)
      recalled_inUse
  · intro remembered
    obtain ⟨row,inside,named⟩ := (episodes_remembered run "b").1.mpr remembered
    have among : "b" ∈ ["a"] := listed ▸ List.mem_map.mpr ⟨row,inside,named⟩
    exact absurd among (by decide)

theorem recall_nearest_once : ∃ s : State Rat, s.episodes.map EpisodeRow.runId = ["a"] ∧
    Nearest lineHost s 0 5 true (EpisodicMemory.recall lineHost s 0 5 true) := by
  have played : ((memory lineHost).play {} recalledOnce).any (fun s =>
      s.episodes.map EpisodeRow.runId == ["a"]) = true := by
    decide +kernel
  obtain ⟨s,run,shown⟩ := System.found played
  exact ⟨s,eq_of_beq shown,recall_nearest run 0 5 true⟩

end HyprlandAgent.Recall
