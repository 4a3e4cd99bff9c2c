import HyprlandAgent.Schemas
import HyprlandAgent.Transition

-- Continuous wake word, VAD, STT and submit pipeline: the capture thread hands in
-- chunks, and the coroutines it schedules complete late and in any order. The thread and
-- the loop share the pipeline's attributes without a lock.
namespace HyprlandAgent.Voice
open Transition

def blockDuration : Seconds := 8 / 100

inductive PipelineState where
  | listening | waking | recording | transcribing | submitting
  deriving DecidableEq, Repr

-- The pipeline's settings, `str.lower` and the conversion of samples to PCM bytes.
structure Setup (α : Type) where
  lower : String → String
  encode : List α → Bytes
  wakeWords : List String := ["computer"]
  recordTimeout : Seconds := 10

-- History only: every list of frames of the recording that was handed on.
structure Recording (α : Type) where
  handed : List (List (List α)) := []
  deriving DecidableEq

-- Where a `_transcribe_and_submit` is suspended.
inductive Transcription where
  | transcribing (pcm : Bytes)
  | submitting (text : String)

-- The two calls of `_trigger_transcribe`.
inductive Ending where
  | silence | time

inductive Stage (α : Type) where
  | state
  | join
  | clear (frames : List (List α))
  | hand (frames : List (List α))

-- Where the capture thread is, named by what it does next: each is one access to what
-- the loop reads or writes too. A method called on the list of frames acts as if at the
-- moment the attribute was read, since nobody else changes a list in place.
inductive Capture (α : Type) where
  | idle
  | isListening (mono : List α)
  | isWaking (mono : List α)
  | isRecording (mono : List α)
  | hears (mono : List α)
  | wakes
  | spots (mono : List α)
  | listens (audio : List α)
  | schedules (audio : List α)
  | appends (mono : List α)
  | judges
  | counts (blocks : Nat)
  | weighs
  | measures
  | looks
  | measuresAgain
  | looksAgain
  | trigger (ending : Ending) (stage : Stage α)
  | raised

-- What the loop's thread has left to do before its coroutine awaits or ends.
inductive Stretch (α : Type) where
  | awaits
  | frames (audio : List α)
  | silence
  | deadline
  | leaves (index : Nat)

-- `checks` and `transcriptions` are the coroutines under way. History: `latest` is the
-- recording that began last, `past` those before it.
structure Pipeline (α : Type) where
  state : PipelineState := .listening
  recordingFrames : List (List α) := []
  speechEndTime : Seconds := 0
  wakeChunk : Option (List α) := none
  silenceBlocks : Nat := 0
  ttsStop : Bool := false
  capture : Capture α := .idle
  stretch : Stretch α := .awaits
  checks : List (List α) := []
  transcriptions : List Transcription := []
  past : List (Recording α) := []
  latest : Option (Recording α) := none

-- What moves the pipeline: a block read by the capture thread, that thread going on with
-- the detector's verdict and the clock as it stands, coroutines whose await is through
-- (no text means that the engine raised), and the loop's thread going on.
inductive PipelineEvent (α : Type) where
  | chunk (mono : List α)
  | captured (speech : Bool) (now : Seconds)
  | heard (index : Nat) (text : Option String)
  | transcribed (index : Nat) (text : Option String)
  | submitted (index : Nat)
  | stretched (now : Seconds)

-- `word in text`
def occursIn (word text : String) : Bool := text.toList.tails.any fun rest => word.toList.isPrefixOf rest

variable {α : Type}

def Stretch.awaiting : Stretch α → Bool
  | .awaits => true
  | _ => false

def Setup.detect (setup : Setup α) (text : String) : Option String :=
  (setup.wakeWords.map setup.lower).find? fun word => occursIn word (setup.lower text)

namespace Pipeline
variable (setup : Setup α) (s : Pipeline α)

def goes (capture : Capture α) : Pipeline α := { s with capture := capture }

def rest : Ending → Capture α
  | .silence => .looks
  | .time => .idle

-- No frames is an empty list of arrays, which NumPy does not concatenate.
def triggerTranscribe (ending : Ending) : Stage α → Pipeline α
  | .state => { s with state := .transcribing, capture := .trigger ending .join }
  | .join =>
    if s.recordingFrames.isEmpty then s.goes .raised
    else s.goes (.trigger ending (.clear s.recordingFrames))
  | .clear frames => { s with recordingFrames := [], capture := .trigger ending (.hand frames) }
  | .hand frames =>
    { s with
      transcriptions := s.transcriptions ++ [.transcribing (setup.encode frames.flatten)]
      latest := s.latest.map fun recording => ⟨recording.handed ++ [frames]⟩
      capture := rest ending }

-- The next access of `_on_chunk`, whose branches are `elif`s and so look at the state again.
def onChunk (speech : Bool) (now : Seconds) : Option (Pipeline α) :=
  match s.capture with
  | .idle | .raised => none
  | .isListening mono => some (s.goes (if s.state = .listening then .hears mono else .isWaking mono))
  | .hears mono =>
    if speech then some { s with state := .waking, wakeChunk := some mono, capture := .wakes }
    else some (s.goes .idle)
  | .wakes => some { s with speechEndTime := now + 2, capture := .idle }
  | .isWaking mono => some (s.goes (if s.state = .waking then .spots mono else .isRecording mono))
  | .spots mono =>
    match s.wakeChunk with
    | none => some (s.goes .raised)
    | some start =>
      if speech = false ∨ s.speechEndTime < now then
        some { s with wakeChunk := some (start ++ mono), capture := .listens (start ++ mono) }
      else some { s with wakeChunk := some (start ++ mono), capture := .idle }
  | .listens audio => some { s with state := .listening, wakeChunk := none, capture := .schedules audio }
  | .schedules audio => some { s with checks := s.checks ++ [audio], capture := .idle }
  | .isRecording mono => some (s.goes (if s.state = .recording then .appends mono else .idle))
  | .appends mono => some { s with recordingFrames := s.recordingFrames ++ [mono], capture := .judges }
  | .judges =>
    if speech then some { s with silenceBlocks := 0, capture := .looks }
    else some (s.goes (.counts s.silenceBlocks))
  | .counts blocks => some { s with silenceBlocks := blocks + 1, capture := .weighs }
  | .weighs => some (s.goes (if 1 ≤ (s.silenceBlocks : Seconds) * blockDuration then .measures else .looks))
  | .measures => some (s.goes (if 20 < s.recordingFrames.length then .trigger .silence .state else .looks))
  | .looks => some (s.goes (if s.speechEndTime < now then .measuresAgain else .looksAgain))
  | .measuresAgain =>
    some (s.goes (if 5 < s.recordingFrames.length then .trigger .time .state else .looksAgain))
  | .looksAgain => some (s.goes (if s.speechEndTime < now then .trigger .time .state else .idle))
  | .trigger ending stage => some (s.triggerTranscribe setup ending stage)

-- The end of `_check_wake_word`, up to its first assignment that the thread can see.
def checkWakeWord (audio : List α) (text : Option String) : Pipeline α :=
  match text.bind setup.detect with
  | some _ =>
    { s with
      ttsStop := true
      state := .recording
      stretch := .frames audio
      past := s.past ++ s.latest.toList
      latest := some {} }
  | none => s

-- The assignments that follow on the loop's thread, each on its own.
def stretched (now : Seconds) : Option (Pipeline α) :=
  match s.stretch with
  | .awaits => none
  | .frames audio => some { s with recordingFrames := [audio], stretch := .silence }
  | .silence => some { s with silenceBlocks := 0, stretch := .deadline }
  | .deadline => some { s with speechEndTime := now + setup.recordTimeout, stretch := .awaits }
  | .leaves index => some
    { s with state := .listening, transcriptions := s.transcriptions.eraseIdx index, stretch := .awaits }

-- `_transcribe_and_submit` once it has its text: an empty one sets the state twice.
def transcribeAndSubmit (index : Nat) : Option String → Pipeline α
  | some text =>
    if text = "" then { s with state := .listening, stretch := .leaves index }
    else { s with state := .submitting, transcriptions := s.transcriptions.set index (.submitting text) }
  | none => { s with state := .listening, transcriptions := s.transcriptions.eraseIdx index }

def step : PipelineEvent α → Option (Pipeline α)
  | .chunk mono =>
    match s.capture with
    | .idle => some (s.goes (.isListening mono))
    | _ => none
  | .captured speech now => s.onChunk setup speech now
  | .stretched now => s.stretched setup now
  | .heard index text =>
    if s.stretch.awaiting then
      (s.checks[index]?).map fun audio =>
        { s with checks := s.checks.eraseIdx index }.checkWakeWord setup audio text
    else none
  | .transcribed index text =>
    if s.stretch.awaiting then
      match s.transcriptions[index]? with
      | some (.transcribing _) => some (s.transcribeAndSubmit index text)
      | _ => none
    else none
  | .submitted index =>
    if s.stretch.awaiting then
      match s.transcriptions[index]? with
      | some (.submitting _) => some
        { s with state := .listening, transcriptions := s.transcriptions.eraseIdx index }
      | _ => none
    else none

end Pipeline

def Recording.Once (recording : Recording α) : Prop :=
  ∃ frames, frames ≠ [] ∧ recording.handed = [frames]

def Capture.records : Capture α → Bool
  | .appends _ | .judges | .counts _ | .weighs | .measures | .looks | .measuresAgain | .looksAgain
  | .trigger _ _ => true
  | _ => false

-- Nothing was raised, every recording was handed on once before the next one began, and
-- so was the latest unless it is still being made.
structure Pipeline.Orderly (s : Pipeline α) : Prop where
  alive : s.capture ≠ .raised
  past : ∀ recording ∈ s.past, recording.Once
  latest : ∀ recording, s.latest = some recording →
    recording.Once ∨ recording.handed = [] ∧ (s.state = .recording ∨ s.capture.records = true)

def pipeline (setup : Setup α) : System (Pipeline α) (PipelineEvent α) := ⟨Pipeline.step setup⟩

def Pipeline.underWay (s : Pipeline α) : Prop := s.latest = some {}

-- While a recording is under way, no check hears the wake word, and nobody sets another
-- state: not the thread, acting on what it saw before, and no coroutine that ends or
-- passes on, unless the thread is in a chunk that may yet hand the recording on. Such a
-- chunk is not left without having done so; and a second end finds other frames than
-- the first, of another recording.
def undisturbed (setup : Setup α) (s : Pipeline α) : PipelineEvent α → Prop
  | .chunk _ => True
  | .captured speech now =>
    match s.capture with
    | .hears _ => speech = true → ¬ s.underWay
    | .listens _ => ¬ s.underWay
    | .looksAgain => s.speechEndTime < now ∨ s.state = .recording ∨ ¬ s.underWay
    | .trigger _ .join => s.recordingFrames ≠ []
    | .trigger _ (.hand _) => s.latest.isSome → s.underWay
    | _ => True
  | .heard _ text => s.underWay → text.bind setup.detect = none
  | .transcribed _ _ | .submitted _ => s.underWay → s.capture.records = true
  | .stretched _ =>
    match s.stretch with
    | .leaves _ => s.underWay → s.capture.records = true
    | _ => True

namespace Pipeline
variable {setup : Setup α} {s next : Pipeline α} {event : PipelineEvent α}

structure Sound (s : Pipeline α) : Prop where
  waking : s.state = .waking → s.wakeChunk.isSome = true
  spots : ∀ mono, s.capture = .spots mono → s.wakeChunk.isSome = true
  frames : ∀ ending frames, s.capture = .trigger ending (.clear frames) ∨
    s.capture = .trigger ending (.hand frames) → frames ≠ []

theorem once_unhanded : ¬ ({} : Recording α).Once := by
  intro given
  obtain ⟨frames,_,handed⟩ := given
  cases handed

theorem Orderly.going (orderly : s.Orderly) (under : s.underWay) :
    s.state = .recording ∨ s.capture.records = true := by
  rcases orderly.latest {} under with once | ⟨_,going⟩
  · exact absurd once once_unhanded
  · exact going

theorem Orderly.kept_iff (orderly : s.Orderly) (alive : next.capture ≠ .raised) (past : next.past = s.past)
    (latest : next.latest = s.latest) :
    next.Orderly ↔ (s.underWay → next.state = .recording ∨ next.capture.records = true) := by
  constructor
  · intro after under
    exact after.going (latest.trans under)
  · intro going
    refine ⟨alive,?_,?_⟩
    · rw [past]
      exact orderly.past
    · intro recording found
      rw [latest] at found
      rcases orderly.latest recording found with once | ⟨unhanded,_⟩
      · exact .inl once
      · obtain ⟨handed⟩ := recording
        obtain rfl : handed = [] := unhanded
        exact .inr ⟨rfl,going found⟩

theorem Orderly.kept (orderly : s.Orderly) (alive : next.capture ≠ .raised) (past : next.past = s.past)
    (latest : next.latest = s.latest)
    (goes : s.state = .recording ∨ s.capture.records = true →
      next.state = .recording ∨ next.capture.records = true) : next.Orderly :=
  (orderly.kept_iff alive past latest).mpr fun under => goes (orderly.going under)

theorem Orderly.moved (orderly : s.Orderly) {capture : Capture α} (alive : capture ≠ .raised)
    (goes : s.capture.records = true → capture.records = true) : (s.goes capture).Orderly := by
  refine orderly.kept alive rfl rfl ?_
  intro going
  rcases going with recording | records
  · exact .inl recording
  · exact .inr (goes records)

theorem Orderly.begun_iff (orderly : s.Orderly) (alive : next.capture ≠ .raised)
    (past : next.past = s.past ++ s.latest.toList) (latest : next.latest = some {})
    (state : next.state = .recording) : next.Orderly ↔ ¬ s.underWay := by
  constructor
  · intro after under
    refine once_unhanded (after.past {} ?_)
    rw [past,under]
    exact List.mem_concat_self
  · intro settled
    refine ⟨alive,?_,?_⟩
    · intro recording inside
      rw [past] at inside
      rcases List.mem_append.mp inside with old | new
      · exact orderly.past recording old
      · have found := Option.mem_toList.mp new
        rcases orderly.latest recording found with once | ⟨unhanded,_⟩
        · exact once
        · obtain ⟨handed⟩ := recording
          obtain rfl : handed = [] := unhanded
          exact absurd found settled
    · intro recording found
      cases latest.symm.trans found
      exact .inr ⟨rfl,.inl state⟩

theorem Orderly.handed_iff (orderly : s.Orderly) {ending : Ending} {frames : List (List α)}
    (present : frames ≠ []) : (s.triggerTranscribe setup ending (.hand frames)).Orderly ↔
      (s.latest.isSome → s.underWay) := by
  constructor
  · intro after some_
    obtain ⟨recording,found⟩ := Option.isSome_iff_exists.mp some_
    have told : (s.triggerTranscribe setup ending (.hand frames)).latest =
        some ⟨recording.handed ++ [frames]⟩ := by
      simp [triggerTranscribe,found]
    have once : (⟨recording.handed ++ [frames]⟩ : Recording α).Once := by
      rcases after.latest _ told with once | ⟨unhanded,_⟩
      · exact once
      · simp at unhanded
    obtain ⟨only,_,handed⟩ := once
    obtain ⟨none_,_⟩ := List.append_eq_singleton_iff.mp handed |>.resolve_right (by simp)
    obtain ⟨before⟩ := recording
    obtain rfl : before = [] := none_
    exact found
  · intro first
    refine ⟨?_,orderly.past,?_⟩
    · cases ending <;> simp [triggerTranscribe,rest]
    · intro recording found
      obtain ⟨before,was,rfl⟩ := Option.map_eq_some_iff.mp found
      have under := first (by rw [was]; rfl)
      cases was.symm.trans under
      exact .inl ⟨frames,present,rfl⟩

def plain : Capture α → Bool
  | .spots _ | .trigger _ (.clear _) | .trigger _ (.hand _) => false
  | _ => true

theorem sound_plain (waking : s.state = .waking → s.wakeChunk.isSome = true) (calm : plain s.capture = true) :
    s.Sound := by
  refine ⟨waking,?_,?_⟩
  · intro mono there
    rw [there] at calm
    cases calm
  · intro ending frames there
    rcases there with there | there
    · rw [there] at calm
      cases calm
    · rw [there] at calm
      cases calm

theorem Sound.moved (sound : s.Sound) {capture : Capture α} (calm : plain capture = true) :
    (s.goes capture).Sound := sound_plain sound.waking calm

theorem trigger_sound (sound : s.Sound) {ending : Ending} {stage : Stage α}
    (there : s.capture = .trigger ending stage) : (s.triggerTranscribe setup ending stage).Sound := by
  cases stage with
  | state =>
    refine sound_plain ?_ rfl
    intro waking
    cases waking
  | join =>
    simp only [triggerTranscribe]
    split
    · exact sound.moved rfl
    · rename_i some_
      refine ⟨sound.waking,fun _ there => (by cases there),?_⟩
      intro other frames clears
      rcases clears with clears | clears
      · cases clears
        simpa using some_
      · cases clears
  | clear frames =>
    refine ⟨sound.waking,fun _ there => (by cases there),?_⟩
    intro other others hands
    rcases hands with hands | hands
    · cases hands
    · cases hands
      exact sound.frames ending frames (.inl there)
  | hand frames =>
    refine sound_plain sound.waking ?_
    cases ending <;> rfl

theorem onChunk_sound {speech : Bool} {now : Seconds} (sound : s.Sound)
    (stepped : s.onChunk setup speech now = some next) : next.Sound := by
  cases there : s.capture with
  | idle | raised =>
    simp only [onChunk,there] at stepped
    cases stepped
  | isListening mono | isRecording mono | weighs | measures | looks | measuresAgain | looksAgain =>
    simp only [onChunk,there,Option.some.injEq] at stepped
    subst stepped
    refine sound.moved ?_
    split <;> rfl
  | wakes | schedules audio | appends mono | counts blocks =>
    simp only [onChunk,there,Option.some.injEq] at stepped
    subst stepped
    exact sound_plain sound.waking rfl
  | hears mono =>
    simp only [onChunk,there] at stepped
    split at stepped
    · cases stepped
      exact sound_plain (fun _ => rfl) rfl
    · cases stepped
      exact sound.moved rfl
  | isWaking mono =>
    simp only [onChunk,there,Option.some.injEq] at stepped
    subst stepped
    split
    · rename_i waking
      refine ⟨sound.waking,fun _ _ => sound.waking waking,?_⟩
      intro ending frames held
      rcases held with held | held
      · cases held
      · cases held
    · exact sound.moved rfl
  | spots mono =>
    obtain ⟨start,found⟩ := Option.isSome_iff_exists.mp (sound.spots mono there)
    simp only [onChunk,there,found] at stepped
    split at stepped
    · cases stepped
      exact sound_plain (fun _ => rfl) rfl
    · cases stepped
      exact sound_plain (fun _ => rfl) rfl
  | listens audio =>
    simp only [onChunk,there,Option.some.injEq] at stepped
    subst stepped
    refine sound_plain ?_ rfl
    intro waking
    cases waking
  | judges =>
    simp only [onChunk,there] at stepped
    split at stepped
    · cases stepped
      exact sound_plain sound.waking rfl
    · cases stepped
      exact sound.moved rfl
  | trigger ending stage =>
    simp only [onChunk,there,Option.some.injEq] at stepped
    subst stepped
    exact trigger_sound sound there

theorem Sound.beside (sound : s.Sound) (state : next.state ≠ .waking) (capture : next.capture = s.capture)
    (chunk : next.wakeChunk = s.wakeChunk) : next.Sound := by
  refine ⟨fun waking => absurd waking state,?_,?_⟩
  · rw [capture,chunk]
    exact sound.spots
  · rw [capture]
    exact sound.frames

theorem stretched_sound {now : Seconds} (sound : s.Sound) (stepped : s.stretched setup now = some next) :
    next.Sound := by
  cases there : s.stretch with
  | awaits =>
    simp only [stretched,there] at stepped
    cases stepped
  | frames audio | silence | deadline =>
    simp only [stretched,there,Option.some.injEq] at stepped
    subst stepped
    exact ⟨sound.waking,sound.spots,sound.frames⟩
  | leaves index =>
    simp only [stretched,there,Option.some.injEq] at stepped
    subst stepped
    exact sound.beside (by simp) rfl rfl

theorem transcribed_beside (index : Nat) (text : Option String) :
    (s.transcribeAndSubmit index text).state ≠ .recording ∧ (s.transcribeAndSubmit index text).state ≠ .waking ∧
      (s.transcribeAndSubmit index text).capture = s.capture ∧
      (s.transcribeAndSubmit index text).wakeChunk = s.wakeChunk ∧
      (s.transcribeAndSubmit index text).past = s.past ∧ (s.transcribeAndSubmit index text).latest = s.latest := by
  unfold transcribeAndSubmit
  split
  · split <;> simp
  · simp

theorem step_sound (sound : s.Sound) (stepped : s.step setup event = some next) : next.Sound := by
  cases event with
  | chunk mono =>
    simp only [step] at stepped
    split at stepped
    · cases stepped
      exact sound.moved rfl
    · cases stepped
  | captured speech now => exact onChunk_sound sound stepped
  | stretched now => exact stretched_sound sound stepped
  | heard index text =>
    simp only [step] at stepped
    split at stepped
    · obtain ⟨audio,_,rfl⟩ := Option.map_eq_some_iff.mp stepped
      unfold checkWakeWord
      split
      · exact sound.beside (by simp) rfl rfl
      · exact ⟨sound.waking,sound.spots,sound.frames⟩
    · cases stepped
  | transcribed index text =>
    simp only [step] at stepped
    split at stepped
    · split at stepped
      · cases stepped
        obtain ⟨_,state,capture,chunk,_⟩ := transcribed_beside (s:=s) index text
        exact sound.beside state capture chunk
      · cases stepped
    · cases stepped
  | submitted index =>
    simp only [step] at stepped
    split at stepped
    · split at stepped
      · cases stepped
        exact sound.beside (by simp) rfl rfl
      · cases stepped
    · cases stepped

theorem Orderly.beside_iff (orderly : s.Orderly) (state : next.state ≠ .recording)
    (capture : next.capture = s.capture) (past : next.past = s.past) (latest : next.latest = s.latest) :
    next.Orderly ↔ (s.underWay → s.capture.records = true) := by
  rw [orderly.kept_iff (capture ▸ orderly.alive) past latest,capture]
  simp only [state,false_or]

theorem Orderly.left_iff (orderly : s.Orderly) (alive : next.capture ≠ .raised) (past : next.past = s.past)
    (latest : next.latest = s.latest) (state : next.state ≠ .recording) (left : next.capture.records = false) :
    next.Orderly ↔ ¬ s.underWay := by
  rw [orderly.kept_iff alive past latest]
  simp [state,left]

theorem trigger_orderly {ending : Ending} {stage : Stage α} {speech : Bool} {now : Seconds} (sound : s.Sound)
    (orderly : s.Orderly) (there : s.capture = .trigger ending stage) :
    (s.triggerTranscribe setup ending stage).Orderly ↔ undisturbed setup s (.captured speech now) := by
  unfold undisturbed
  rw [there]
  cases stage with
  | state => exact iff_of_true (orderly.kept (by simp [triggerTranscribe]) rfl rfl fun _ => .inr rfl) trivial
  | join =>
    simp only [triggerTranscribe]
    split
    · rename_i none_
      have empty : s.recordingFrames = [] := by simpa using none_
      exact iff_of_false (fun after => after.alive rfl) (absurd empty)
    · rename_i some_
      refine iff_of_true (orderly.moved (by simp) fun _ => rfl) ?_
      simpa using some_
  | clear frames => exact iff_of_true (orderly.kept (by simp [triggerTranscribe]) rfl rfl fun _ => .inr rfl) trivial
  | hand frames => exact orderly.handed_iff (sound.frames ending frames (.inr there))

theorem onChunk_orderly {speech : Bool} {now : Seconds} (sound : s.Sound) (orderly : s.Orderly)
    (stepped : s.onChunk setup speech now = some next) :
    next.Orderly ↔ undisturbed setup s (.captured speech now) := by
  cases there : s.capture with
  | idle =>
    simp only [onChunk,there] at stepped
    cases stepped
  | raised => exact absurd there orderly.alive
  | isListening mono | isWaking mono | isRecording mono =>
    simp only [onChunk,there,Option.some.injEq] at stepped
    subst stepped
    simp only [undisturbed,there,iff_true]
    refine orderly.moved ?_ ?_
    · split <;> simp
    · simp [there,Capture.records]
  | hears mono =>
    simp only [onChunk,there] at stepped
    simp only [undisturbed,there]
    split at stepped
    · rename_i speaks
      cases stepped
      simp only [speaks,true_implies]
      exact orderly.left_iff (by simp) rfl rfl (by simp) rfl
    · rename_i quiet
      cases stepped
      refine iff_of_true ?_ fun speaks => absurd speaks quiet
      exact orderly.moved (by simp) (by simp [there,Capture.records])
  | spots mono =>
    obtain ⟨start,found⟩ := Option.isSome_iff_exists.mp (sound.spots mono there)
    simp only [onChunk,there,found] at stepped
    simp only [undisturbed,there,iff_true]
    split at stepped
    · cases stepped
      exact orderly.kept (by simp) rfl rfl (by simp [there,Capture.records])
    · cases stepped
      exact orderly.kept (by simp) rfl rfl (by simp [there,Capture.records])
  | listens audio =>
    simp only [onChunk,there,Option.some.injEq] at stepped
    subst stepped
    simp only [undisturbed,there]
    exact orderly.left_iff (by simp) rfl rfl (by simp) rfl
  | wakes | schedules audio =>
    simp only [onChunk,there,Option.some.injEq] at stepped
    subst stepped
    simp only [undisturbed,there,iff_true]
    exact orderly.kept (by simp) rfl rfl (by simp [there,Capture.records])
  | appends mono | counts blocks =>
    simp only [onChunk,there,Option.some.injEq] at stepped
    subst stepped
    simp only [undisturbed,there,iff_true]
    exact orderly.kept (by simp) rfl rfl fun _ => .inr rfl
  | judges =>
    simp only [onChunk,there] at stepped
    simp only [undisturbed,there,iff_true]
    split at stepped
    · cases stepped
      exact orderly.kept (by simp) rfl rfl fun _ => .inr rfl
    · cases stepped
      exact orderly.moved (by simp) fun _ => rfl
  | weighs | measures | looks | measuresAgain =>
    simp only [onChunk,there,Option.some.injEq] at stepped
    subst stepped
    simp only [undisturbed,there,iff_true]
    refine orderly.moved ?_ ?_
    · split <;> simp
    · split <;> simp [Capture.records]
  | looksAgain =>
    simp only [onChunk,there,Option.some.injEq] at stepped
    subst stepped
    simp only [undisturbed,there]
    split
    · rename_i late
      simp only [late,true_or,iff_true]
      exact orderly.moved (by simp) fun _ => rfl
    · rename_i early
      have kept : (s.goes .idle).Orderly ↔ (s.underWay → s.state = .recording ∨ false = true) :=
        orderly.kept_iff (by simp [goes]) rfl rfl
      rw [kept]
      simp only [early,Bool.false_eq_true,or_false,false_or]
      tauto
  | trigger ending stage =>
    simp only [onChunk,there,Option.some.injEq] at stepped
    subst stepped
    exact trigger_orderly sound orderly there

theorem stretched_orderly {now : Seconds} (orderly : s.Orderly) (stepped : s.stretched setup now = some next) :
    next.Orderly ↔ undisturbed setup s (.stretched now) := by
  cases there : s.stretch with
  | awaits =>
    simp only [stretched,there] at stepped
    cases stepped
  | frames audio | silence | deadline =>
    simp only [stretched,there,Option.some.injEq] at stepped
    subst stepped
    simp only [undisturbed,there,iff_true]
    exact orderly.kept orderly.alive rfl rfl id
  | leaves index =>
    simp only [stretched,there,Option.some.injEq] at stepped
    subst stepped
    simp only [undisturbed,there]
    exact orderly.beside_iff (by simp) rfl rfl rfl

theorem heard_orderly {audio : List α} {text : Option String} (orderly : s.Orderly) :
    (s.checkWakeWord setup audio text).Orderly ↔ (s.underWay → text.bind setup.detect = none) := by
  unfold checkWakeWord
  split
  · rename_i word heard
    refine Iff.trans (b:=¬ s.underWay) (orderly.begun_iff orderly.alive rfl rfl rfl) ?_
    simp [heard]
  · rename_i unheard
    exact iff_of_true orderly fun _ => unheard

theorem step_orderly (sound : s.Sound) (orderly : s.Orderly) (stepped : s.step setup event = some next) :
    next.Orderly ↔ undisturbed setup s event := by
  cases event with
  | chunk mono =>
    simp only [step] at stepped
    split at stepped
    · rename_i there
      cases stepped
      refine iff_of_true (orderly.moved (by simp) ?_) trivial
      simp [there,Capture.records]
    · cases stepped
  | captured speech now => exact onChunk_orderly sound orderly stepped
  | stretched now => exact stretched_orderly orderly stepped
  | heard index text =>
    simp only [step] at stepped
    split at stepped
    · obtain ⟨audio,_,rfl⟩ := Option.map_eq_some_iff.mp stepped
      exact heard_orderly (s:={ s with checks := s.checks.eraseIdx index })
        ⟨orderly.alive,orderly.past,orderly.latest⟩
    · cases stepped
  | transcribed index text =>
    simp only [step] at stepped
    split at stepped
    · split at stepped
      · cases stepped
        obtain ⟨state,_,capture,_,past,latest⟩ := transcribed_beside (s:=s) index text
        exact orderly.beside_iff state capture past latest
      · cases stepped
    · cases stepped
  | submitted index =>
    simp only [step] at stepped
    split at stepped
    · split at stepped
      · cases stepped
        exact orderly.beside_iff (by simp) rfl rfl rfl
      · cases stepped
    · cases stepped

end Pipeline

-- Over whole runs from a pipeline that listens, whatever the order in which the thread
-- and the loop take turns.
theorem recordings_handed_iff (setup : Setup α) (events : List (PipelineEvent α)) :
    (pipeline setup).Always Pipeline.Orderly {} events ↔
      (pipeline setup).Meets (undisturbed setup) {} events := by
  refine System.always_iff_meets (I:=Pipeline.Sound) ?_ ?_ ?_ ?_ events
  · intro s event next sound stepped
    exact Pipeline.step_sound sound stepped
  · intro s event next sound orderly stepped
    exact Pipeline.step_orderly sound orderly stepped
  · exact Pipeline.sound_plain (by simp) rfl
  · exact ⟨by simp,by simp,by simp⟩

def plainSetup : Setup Int where
  lower := id
  encode := fun _ => []

def block (speech : Bool) (now : Seconds) (steps : Nat) : List (PipelineEvent Int) :=
  .chunk [0] :: List.replicate steps (.captured speech now)

def quietRecording : List (PipelineEvent Int) :=
  block true 0 3 ++ block false 0 5 ++ [.heard 0 (some "computer")] ++ List.replicate 3 (.stretched 0) ++
    (List.replicate 12 (block false 0 9) ++ List.replicate 7 (block false 0 10)).flatten ++ block false 11 17

theorem quiet_recording_raises : ¬ ∀ (setup : Setup Int) events,
    (pipeline setup).Always Pipeline.Orderly {} events := by
  intro always
  have raised : ((pipeline plainSetup).play {} quietRecording).any
      (fun s => match s.capture with | .raised => true | _ => false) = true := by
    decide +kernel
  obtain ⟨last,played,shown⟩ := (Option.any_eq_true _ _).mp raised
  have orderly : last.Orderly := (always plainSetup quietRecording).played played
  split at shown
  · rename_i there
    exact orderly.alive there
  · cases shown

end HyprlandAgent.Voice
