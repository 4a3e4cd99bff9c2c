import HyprlandAgent.Daemon.Chronicle
import HyprlandAgent.Daemon.Rehearsal

-- The event stream of a run: what is stored, and what its topic carries.
namespace HyprlandAgent
open Coroutine RunExecutor Orchestrator
variable {h : Host} {run : RunId} {stop : Bool} {focused : Option Window} {rules : List AllowRule}
  {l : Loop effects TaskId World}

def AtMostOne (shape : Dict → Prop) (messages : List Dict) : Prop :=
  messages = [] ∨ ∃ message, messages = [message] ∧ shape message

-- The topic of a run: its start, the events told so far, the verdict and the finish. Once
-- the emission of an event was cut off nothing is emitted any more, and the run does not
-- complete.
structure Topic (run : RunId) (cell : Cell) (past : Ledger) (o : Origin) (said : List RunEventRecord)
    (verdict finish : List Dict) : Prop where
  launched : past.launched = some (o.kind,o.task,o.brain)
  published : cell.published = o.started run :: said.map (messageOf run) ++ verdict ++ finish
  stored : said <+: cell.rows.events
  emitted : said = past.attempts ∨ said = past.attempts.dropLast
  verdict : AtMostOne (fun message => ∃ status, status.terminal = true ∧
    Verdict run o.kind status message ∧ (status = .completed → said = past.attempts)) verdict
  finish : AtMostOne (fun message => ∃ status, message = finishedMessage run o.task status) finish

theorem prefix_between {said whole : List α} (low : whole.dropLast <+: said) (high : said <+: whole) :
    said = whole ∨ said = whole.dropLast := by
  have upper := high.length_le
  have lower := low.length_le
  rw [List.length_dropLast] at lower
  by_cases full : said.length = whole.length
  · exact .inl (high.eq_of_length full)
  · refine .inr (low.eq_of_length ?_).symm
    rw [List.length_dropLast]
    omega

theorem numbered_front {events attempts : List RunEventRecord} (front : events <+: attempts)
    (numbered : attempts.map RunEventRecord.seq = List.range attempts.length) :
    events.map RunEventRecord.seq = List.range events.length := by
  obtain ⟨rest,rfl⟩ := front
  rw [List.map_append,List.length_append,List.range_add] at numbered
  exact List.append_inj_left numbered (by simp)

theorem Closing.topic {o : Origin} {issued : List RunStatus} {tail : List Dict}
    {decided : Option RunStatus} {cut : Bool} {cell : Cell} {past : Ledger} {verdict finish : List Dict}
    (records : Closing run o issued tail decided cut cell past) (split : tail = verdict ++ finish)
    (shape : Tail run o issued verdict)
    (finished : AtMostOne (fun message => ∃ status, message = finishedMessage run o.task status) finish) :
    ∃ said, Topic run cell past o said verdict finish := by
  obtain ⟨said,stored,recent,whole,published⟩ := records.told
  refine ⟨said,records.launched,?_,stored,prefix_between recent (stored.trans records.stored),?_,finished⟩
  · rw [published,split,List.append_assoc]
  · cases shape with
    | untold => exact .inl rfl
    | @told status message last verdict =>
      have issued := List.mem_of_getLast? last
      exact .inr ⟨message,rfl,status,records.final status issued,verdict,fun completed => whole (completed ▸ issued)⟩

theorem bare_topic {w : World} (handed : handedOver run (core run w)) :
    ∃ o, Topic run (w.cells run) (w.ledgers run) o [] [] [] := by
  obtain ⟨kind,task,brainName,brain,startedAt,same⟩ := handed
  have attempts : (w.ledgers run).attempts = [] := congrArg (fun state => state.2.attempts) same
  have launched : (w.ledgers run).launched = some (kind,task,brain) :=
    congrArg (fun state => state.2.launched) same
  have published : (w.cells run).published = [startedMessage run kind task brainName] :=
    congrArg (fun state => state.1.published) same
  exact ⟨⟨kind,task,brain,brainName⟩,launched,published,List.nil_prefix,.inl attempts.symm,.inl rfl,.inl rfl⟩

theorem Ended.records {w : World} (ended : Ended run w) :
    ∃ o issued tail decided cut, closing run o issued tail decided cut w ∧
      ∃ verdict finish, tail = verdict ++ finish ∧ Tail run o issued verdict ∧
        AtMostOne (fun message => ∃ status, message = finishedMessage run o.task status) finish := by
  cases ended with
  | broken last shape records =>
    exact ⟨_,_,_,_,_,records,_,[],(List.append_nil _).symm,shape,.inl rfl⟩
  | whole last shape records outcomes => exact ⟨_,_,_,_,_,records,_,_,rfl,shape,.inr ⟨_,rfl,_,rfl⟩⟩

theorem Chapter.streams (chapter : Chapter run l) :
    ((l.world.cells run).rows.events = [] ∧ (l.world.cells run).audit = [] ∧
      ((l.world.cells run).published = [] ∨
        ∃ o, Topic run (l.world.cells run) (l.world.ledgers run) o [] [] [])) ∨
    ∃ o issued tail decided cut, closing run o issued tail decided cut l.world ∧
      ∃ verdict finish, tail = verdict ++ finish ∧ Tail run o issued verdict ∧
        AtMostOne (fun message => ∃ status, message = finishedMessage run o.task status) finish := by
  cases chapter with
  | opening unbegun state =>
    rcases state with barren | ⟨handed,only⟩
    · exact .inl ⟨barren.bare.events,barren.bare.audit,.inl barren.bare.published⟩
    · have topic := bare_topic handed
      obtain ⟨kind,task,brainName,brain,startedAt,same⟩ := handed
      exact .inl ⟨congrArg (fun state => state.1.rows.events) same,
        congrArg (fun state => state.1.audit) same,.inr topic⟩
  | running live shape records =>
    exact .inr ⟨_,_,_,_,_,records,_,[],(List.append_nil _).symm,shape,.inl rfl⟩
  | ended finished ended => exact .inr ended.records

theorem Chapter.topic (chapter : Chapter run l) : (l.world.cells run).published = [] ∨
    ∃ o said verdict finish, Topic run (l.world.cells run) (l.world.ledgers run) o said verdict finish := by
  rcases chapter.streams with ⟨_,_,silent | ⟨o,topic⟩⟩ | ⟨o,_,_,_,_,records,verdict,finish,split,shape,finished⟩
  · exact .inl silent
  · exact .inr ⟨o,[],[],[],topic⟩
  · obtain ⟨said,topic⟩ := records.topic split shape finished
    exact .inr ⟨o,said,verdict,finish,topic⟩

theorem Chapter.audited (chapter : Chapter run l) : ∀ line ∈ (l.world.cells run).audit,
    ∃ event ∈ (l.world.cells run).rows.events, line = auditEntry run event := by
  rcases chapter.streams with ⟨_,none,_⟩ | ⟨_,_,_,_,_,records,_⟩
  · rw [none]
    exact fun line inside => absurd inside List.not_mem_nil
  · exact records.audited

theorem Chapter.emittable (chapter : Chapter run l) : ∀ event ∈ (l.world.cells run).rows.events,
    Emittable event.kind event.payload := by
  rcases chapter.streams with ⟨none,_⟩ | ⟨_,_,_,_,_,records,_⟩
  · rw [none]
    exact fun event inside => absurd inside List.not_mem_nil
  · exact fun event inside => records.emittable event (records.stored.subset inside)

-- Stored events are numbered without gap in the order of emission; the topic carries the
-- start, then these events, the last of which may be missing unless the run completed, then
-- at most one verdict and at most one finish.
theorem event_stream (path : Reached (daemon h) (boot stop focused rules) l) (run : RunId) :
    (l.world.cells run).rows.events.map RunEventRecord.seq =
        List.range (l.world.cells run).rows.events.length ∧
      (l.world.cells run).rows.events <+: (l.world.ledgers run).attempts ∧
      ((l.world.cells run).published = [] ∨ ∃ o said verdict finish,
        Topic run (l.world.cells run) (l.world.ledgers run) o said verdict finish) := by
  have chapter := daemon_chapter path run
  rcases chapter.streams with ⟨none,_⟩ | ⟨_,_,_,_,_,records,_⟩
  · rw [none]
    exact ⟨rfl,List.nil_prefix,chapter.topic⟩
  · exact ⟨numbered_front records.stored records.numbered,records.stored,chapter.topic⟩

-- A client cancels the run while its second event is being audited: two events are
-- stored and one is told.
def interrupted : List Cue :=
  begins .run ++ List.replicate 17 (goes [] (bodyOf "r") {}) ++
    [calls (.cancel "r"),raises (bodyOf "r") .cancelled .orphaned] ++
    List.replicate 8 (goes [] (bodyOf "r") {})

theorem event_stream_interrupted : ∃ l, Reached (daemon plainHost) idle l ∧
    ((l.world.cells "r").rows.events.length = 2 ∧ (l.world.cells "r").published.length = 4) ∧
    (l.world.cells "r").rows.events.map RunEventRecord.seq =
        List.range (l.world.cells "r").rows.events.length ∧
      (l.world.cells "r").rows.events <+: (l.world.ledgers "r").attempts ∧
      ((l.world.cells "r").published = [] ∨ ∃ o said verdict finish,
        Topic "r" (l.world.cells "r") (l.world.ledgers "r") o said verdict finish) := by
  have played : (drive (daemon plainHost) idle interrupted).any (fun l =>
      (l.world.cells "r").rows.events.length == 2 && (l.world.cells "r").published.length == 4) = true := by
    decide +kernel
  obtain ⟨l,path,shown⟩ := rehearsed played
  simp only [Bool.and_eq_true,beq_iff_eq] at shown
  exact ⟨l,path,shown,event_stream path "r"⟩

def Streams (run : RunId) (w : World) : Prop :=
  (w.cells run).published = [] ∨ ∃ (o : Origin) (verdict finish : List Dict),
    AtMostOne (fun message => ∃ status, status.terminal = true ∧ Verdict run o.kind status message) verdict ∧
    AtMostOne (fun message => ∃ status, message = finishedMessage run o.task status) finish ∧
    (w.cells run).published <+:
      o.started run :: (w.ledgers run).attempts.map (messageOf run) ++ verdict ++ finish

theorem last_event_untold : ∃ l, Reached (daemon plainHost) idle l ∧ ¬Streams "r" l.world := by
  have played : (drive (daemon plainHost) idle interrupted).any (fun l =>
      (l.world.cells "r").published[2]?.bind (·.lookup "kind") == some (.str "run_aborted") &&
        (l.world.ledgers "r").attempts[1]?.bind (fun event => (messageOf "r" event).lookup "kind") ==
          some (.str "state")) = true := by
    decide +kernel
  obtain ⟨l,path,shown⟩ := rehearsed played
  simp only [Bool.and_eq_true,beq_iff_eq] at shown
  obtain ⟨third,emitted⟩ := shown
  refine ⟨l,path,?_⟩
  intro streams
  rcases streams with silent | ⟨o,verdict,finish,_,_,front⟩
  · rw [silent] at third
    cases third
  -- The verdict stands where the second event belongs.
  obtain ⟨event,second,kind⟩ := Option.bind_eq_some_iff.mp emitted
  obtain ⟨message,there,aborted⟩ := Option.bind_eq_some_iff.mp third
  have place : (o.started "r" :: (l.world.ledgers "r").attempts.map (messageOf "r") ++ verdict ++ finish)[2]? =
      some (messageOf "r" event) := by
    have inside : ((l.world.ledgers "r").attempts.map (messageOf "r"))[1]? = some (messageOf "r" event) := by
      rw [List.getElem?_map,second]
      rfl
    have short := (List.getElem?_eq_some_iff.mp inside).1
    rw [List.cons_append,List.cons_append,List.getElem?_cons_succ,List.append_assoc,
      List.getElem?_append_left short,inside]
  obtain ⟨rest,whole⟩ := front
  rw [← whole,List.getElem?_append_left (List.getElem?_eq_some_iff.mp there).1,there] at place
  rw [← Option.some.inj place,aborted] at kind
  simp at kind

end HyprlandAgent
