import HyprlandAgent.Learning.Proposals
import HyprlandAgent.Safety.Allowlist
import HyprlandAgent.Transition
import Mathlib.Algebra.GroupWithZero.Nat
import Mathlib.Logic.Function.Iterate

-- From blocked windows to proposals: the miss counter, and the miner that drains it.
namespace HyprlandAgent.Learning
open Transition

abbrev MissCounter := List ((String × String) × Nat)

def bump (entry : String × String) : MissCounter → MissCounter
  | [] => [(entry,1)]
  | (known,hits) :: rest =>
    if known = entry then (known,hits + 1) :: rest else (known,hits) :: bump entry rest

def missed (counter : MissCounter) : Misses := fun entry =>
  ((counter.find? fun known => known.1 = entry).map Prod.snd).getD 0

section
variable (lower : String → String)

-- What `is_allowed` leaves in the counter.
def recordWindow (rules : List AllowRule) (window : Window) (counter : MissCounter) : MissCounter :=
  if alwaysDenied lower window || isAllowed lower rules window then counter
  else bump (window.appClass,window.title) counter

theorem missed_bump (entry : String × String) (counter : MissCounter) :
    missed (bump entry counter) = fun other => if other = entry then missed counter other + 1 else missed counter other := by
  funext other
  induction counter with
  | nil =>
    by_cases same : other = entry
    · simp [bump,missed,same]
    · simp [bump,missed,same,Ne.symm same]
  | cons known rest ih =>
    obtain ⟨key,hits⟩ := known
    unfold missed at ih ⊢
    by_cases found : key = entry
    · by_cases same : other = entry
      · simp [bump,found,same]
      · simp [bump,found,same,Ne.symm same]
    · by_cases here : key = other
      · have apart : other ≠ entry := fun same => found (here.trans same)
        simp [bump,here,apart]
      · simpa [bump,found,here] using ih

end

variable {Text : Type}

-- `AllowlistMiner.mine` over the drained entries: an upsert that fails writes nothing and is
-- not counted. How often an entry was missed is not looked at.
def mineMisses (fails : String × String → Bool) (clock : String × String → Seconds) :
    MissCounter → Database Text × Nat → Database Text × Nat
  | [],result => result
  | (entry,_hits) :: rest,(db,count) =>
    if fails entry then mineMisses fails clock rest (db,count)
    else mineMisses fails clock rest (db.upsertAllowlistProposal entry.1 "*" (clock entry),count + 1)

-- Beside the counter and the tables, for each class how many of its windows were refused since
-- the drain that made its proposal pending, or since the last drain where there is none.
structure Mining (Text : Type) where
  counter : MissCounter
  db : Database Text
  refused : String → Nat

inductive MiningEvent where
  | isAllowed (rules : List AllowRule) (window : Window)
  | mine (fails : String × String → Bool) (clock : String × String → Seconds)

def proposalOf (db : Database Text) (appClass : String) : Option (Status × Nat) :=
  (db.proposals.find? fun proposal => proposal.appClass = appClass).map fun proposal =>
    (proposal.status,proposal.hitCount)

def pending (db : Database Text) (appClass : String) : Bool :=
  ((proposalOf db appClass).map Prod.fst) == some .pending

def miningStep (lower : String → String) (s : Mining Text) : MiningEvent → Mining Text
  | .isAllowed rules window =>
    { s with
      counter := recordWindow lower rules window s.counter
      refused := fun appClass =>
        if isAllowed lower rules window = false ∧ window.appClass = appClass then s.refused appClass + 1
        else s.refused appClass }
  | .mine fails clock =>
    let (db,_) := mineMisses fails clock s.counter (s.db,0)
    { counter := [],db,refused := fun appClass => if pending db appClass then s.refused appClass else 0 }

def mining (lower : String → String) : System (Mining Text) MiningEvent where
  step := fun s event => some (miningStep lower s event)

def attempts (counter : MissCounter) (appClass : String) : Nat :=
  ((counter.filter fun entry => entry.1.1 = appClass).map Prod.snd).sum

def Conserved (s : Mining Text) : Prop :=
  ∀ proposal ∈ s.db.proposals, proposal.status = .pending →
    proposal.hitCount + attempts s.counter proposal.appClass = s.refused proposal.appClass

def GetsPending (s : Mining Text) (fails : String × String → Bool) (appClass : String) : Prop :=
  pending s.db appClass = true ∨
    (proposalOf s.db appClass = none ∧ ∃ entry ∈ s.counter, entry.1.1 = appClass ∧ fails entry.1 = false)

-- Each drained entry of such a class was missed once, and its upsert succeeds.
def Single (s : Mining Text) : MiningEvent → Prop
  | .isAllowed _ _ => True
  | .mine fails _ => ∀ entry ∈ s.counter, GetsPending s fails entry.1.1 → entry.2 = 1 ∧ fails entry.1 = false

theorem attempts_bump (entry : String × String) (counter : MissCounter) (appClass : String) :
    attempts (bump entry counter) appClass = attempts counter appClass + if entry.1 = appClass then 1 else 0 := by
  induction counter with
  | nil => by_cases same : entry.1 = appClass <;> simp [bump,attempts,same]
  | cons known rest ih =>
    obtain ⟨key,hits⟩ := known
    unfold attempts at ih ⊢
    by_cases found : key = entry
    · by_cases same : entry.1 = appClass
      · simp [bump,found,same]
        omega
      · simp [bump,found,same]
    · by_cases here : key.1 = appClass
      · simp only [bump,found,if_false,List.filter_cons,here,decide_true,if_true,List.map_cons,List.sum_cons,ih]
        omega
      · simpa [bump,found,here] using ih

def Positive (counter : MissCounter) : Prop := ∀ entry ∈ counter, 1 ≤ entry.2

theorem Positive.bump {counter : MissCounter} (positive : Positive counter) (entry : String × String) :
    Positive (bump entry counter) := by
  induction counter with
  | nil =>
    intro other inside
    rw [List.mem_singleton.mp inside]
  | cons known rest ih =>
    obtain ⟨first,others⟩ := List.forall_mem_cons.mp positive
    unfold Learning.bump
    split
    · exact List.forall_mem_cons.mpr ⟨Nat.le_succ_of_le first,others⟩
    · exact List.forall_mem_cons.mpr ⟨first,ih others⟩

def hit : Option (Status × Nat) → Option (Status × Nat)
  | none => some (.pending,1)
  | some (.pending,hits) => some (.pending,hits + 1)
  | some decided => some decided

theorem proposalOf_upsert {db : Database Text} (keyed : Keyed db) (mined appClass : String) (now : Seconds) :
    proposalOf (db.upsertAllowlistProposal mined "*" now) appClass =
      if mined = appClass then hit (proposalOf db appClass) else proposalOf db appClass := by
  have titled : (db.proposals.any fun proposal => proposal.appClass = mined ∧ proposal.titlePat = "*") = true ↔
      ∃ proposal ∈ db.proposals, proposal.appClass = mined := by
    rw [List.any_eq_true]
    constructor
    · rintro ⟨proposal,inside,both⟩
      exact ⟨proposal,inside,(of_decide_eq_true both).1⟩
    · rintro ⟨proposal,inside,same⟩
      exact ⟨proposal,inside,decide_eq_true ⟨same,keyed.titles proposal inside⟩⟩
  unfold Database.upsertAllowlistProposal proposalOf
  by_cases known : (db.proposals.any fun proposal => proposal.appClass = mined ∧ proposal.titlePat = "*") = true
  · rw [if_pos known,List.find?_map]
    have kept : ((fun proposal : AllowlistProposal => decide (proposal.appClass = appClass)) ∘ fun proposal =>
        if (proposal.appClass = mined ∧ proposal.titlePat = "*") ∧ proposal.status = .pending then
          { proposal with hitCount := proposal.hitCount + 1,lastSeen := now }
        else proposal) = fun proposal => decide (proposal.appClass = appClass) := by
      funext proposal
      simp only [Function.comp_apply]
      split <;> rfl
    rw [kept]
    cases found : db.proposals.find? fun proposal => decide (proposal.appClass = appClass) with
    | none =>
      by_cases same : mined = appClass
      · obtain ⟨proposal,inside,classed⟩ := titled.mp known
        have missing := List.find?_eq_none.mp found proposal inside
        simp [classed,same] at missing
      · simp [same]
    | some proposal =>
      have classed : proposal.appClass = appClass := by
        simpa using List.find?_some found
      have wild := keyed.titles proposal (List.mem_of_find?_eq_some found)
      by_cases same : mined = appClass
      · cases status : proposal.status <;> simp [classed,same,wild,status,hit]
      · have apart : ¬appClass = mined := fun equal => same equal.symm
        simp [classed,same,apart]
  · rw [if_neg known,List.find?_append]
    by_cases same : mined = appClass
    · have none : db.proposals.find? (fun proposal => decide (proposal.appClass = appClass)) = none := by
        rw [List.find?_eq_none]
        intro proposal inside classed
        exact known (titled.mpr ⟨proposal,inside,(of_decide_eq_true classed).trans same.symm⟩)
      simp [none,same,hit]
    · have single : List.find? (fun proposal : AllowlistProposal => decide (proposal.appClass = appClass))
          [⟨db.lastProposal + 1,mined,"*",1,now,.pending⟩] = none := by simp [same]
      rw [single,Option.or_none,if_neg same]

def successes (fails : String × String → Bool) (misses : MissCounter) (appClass : String) : Nat :=
  (misses.filter fun entry => entry.1.1 = appClass && !fails entry.1).length

theorem mineMisses_keyed {fails : String × String → Bool} {clock : String × String → Seconds} (misses : MissCounter)
    {db : Database Text} (count : Nat) (keyed : Keyed db) : Keyed (mineMisses fails clock misses (db,count)).1 := by
  induction misses generalizing db count with
  | nil => exact keyed
  | cons entry rest ih =>
    rw [mineMisses]
    split
    · exact ih count keyed
    · exact ih (count + 1) (keyed.upsertAllowlistProposal _ _)

theorem proposalOf_mined {fails : String × String → Bool} {clock : String × String → Seconds} (misses : MissCounter)
    {db : Database Text} (count : Nat) (keyed : Keyed db) (appClass : String) :
    proposalOf (mineMisses fails clock misses (db,count)).1 appClass =
      hit^[successes fails misses appClass] (proposalOf db appClass) := by
  induction misses generalizing db count with
  | nil => rfl
  | cons entry rest ih =>
    obtain ⟨⟨mined,title⟩,hits⟩ := entry
    rw [mineMisses]
    by_cases failed : fails (mined,title) = true
    · rw [if_pos failed,ih count keyed]
      simp [successes,failed]
    · rw [if_neg failed,ih (count + 1) (keyed.upsertAllowlistProposal _ _),proposalOf_upsert keyed]
      by_cases same : mined = appClass
      · subst same
        simp [successes,failed]
      · simp [successes,same]

theorem hit_pending (hits turns : Nat) : hit^[turns] (some (.pending,hits)) = some (.pending,hits + turns) := by
  induction turns with
  | zero => rfl
  | succ turns ih =>
    rw [Function.iterate_succ_apply',ih]
    rfl

theorem hit_none (turns : Nat) : hit^[turns + 1] none = some (.pending,turns + 1) := by
  rw [Function.iterate_succ_apply,hit,hit_pending,Nat.add_comm]

theorem hit_decided {status : Status} (hits turns : Nat) (decided : status ≠ .pending) :
    hit^[turns] (some (status,hits)) = some (status,hits) := by
  induction turns with
  | zero => rfl
  | succ turns ih =>
    rw [Function.iterate_succ_apply',ih]
    cases status with
    | pending => exact absurd rfl decided
    | draft | proposed | approved | rejected => rfl

theorem successes_le {fails : String × String → Bool} {misses : MissCounter} (positive : Positive misses)
    (appClass : String) : successes fails misses appClass ≤ attempts misses appClass := by
  induction misses with
  | nil => exact Nat.le_refl 0
  | cons entry rest ih =>
    obtain ⟨one,others⟩ := List.forall_mem_cons.mp positive
    have later := ih others
    unfold successes attempts at later ⊢
    by_cases same : entry.1.1 = appClass
    · cases failed : fails entry.1 <;> simp [same,failed] <;> omega
    · simpa [same] using later

theorem successes_eq_iff {fails : String × String → Bool} {misses : MissCounter} (positive : Positive misses)
    (appClass : String) : successes fails misses appClass = attempts misses appClass ↔
      ∀ entry ∈ misses, entry.1.1 = appClass → entry.2 = 1 ∧ fails entry.1 = false := by
  induction misses with
  | nil => simp [successes,attempts]
  | cons entry rest ih =>
    obtain ⟨one,others⟩ := List.forall_mem_cons.mp positive
    have bound := @successes_le fails rest others appClass
    rw [List.forall_mem_cons,← ih others]
    unfold successes attempts at bound ⊢
    by_cases same : entry.1.1 = appClass
    · cases failed : fails entry.1
      · simp only [List.filter_cons,same,failed,decide_true,Bool.not_false,Bool.and_self,if_true,List.length_cons,
          List.map_cons,List.sum_cons,forall_const,and_true]
        omega
      · simp only [List.filter_cons,same,failed,decide_true,Bool.not_true,Bool.and_false,Bool.false_eq_true,if_false,
          if_true,List.map_cons,List.sum_cons,reduceCtorEq,and_false,forall_const,false_and,iff_false]
        omega
    · simp [same]

def denied (lower : String → String) (appClass : String) : Bool := alwaysDeny.contains (lower appClass)

structure Accounted (lower : String → String) (s : Mining Text) : Prop where
  keyed : Keyed s.db
  positive : Positive s.counter
  apart : ∀ appClass, denied lower appClass = true → attempts s.counter appClass = 0 ∧ pending s.db appClass = false
  counted : ∀ appClass, denied lower appClass = false → pending s.db appClass = false →
    s.refused appClass = attempts s.counter appClass

def Balanced (s : Mining Text) : Prop := ∀ appClass hits, proposalOf s.db appClass = some (.pending,hits) →
  hits + attempts s.counter appClass = s.refused appClass

theorem pending_iff {db : Database Text} {appClass : String} :
    pending db appClass = true ↔ ∃ hits, proposalOf db appClass = some (.pending,hits) := by
  unfold pending
  cases proposalOf db appClass with
  | none => simp
  | some row =>
    obtain ⟨status,hits⟩ := row
    simp

theorem conserved_iff {s : Mining Text} (keyed : Keyed s.db) : Conserved s ↔ Balanced s := by
  constructor
  · intro conserved appClass hits found
    obtain ⟨proposal,first,same⟩ := Option.map_eq_some_iff.mp found
    have classed : proposal.appClass = appClass := by simpa using List.find?_some first
    rw [Prod.mk.injEq] at same
    rw [← classed,← same.2]
    exact conserved proposal (List.mem_of_find?_eq_some first) same.1
  · intro balanced proposal inside status
    apply balanced
    unfold proposalOf
    cases found : s.db.proposals.find? fun other => other.appClass = proposal.appClass with
    | none =>
      have missing := List.find?_eq_none.mp found proposal inside
      simp at missing
    | some other =>
      have classed : other.appClass = proposal.appClass := by simpa using List.find?_some found
      rw [keyed.classes other (List.mem_of_find?_eq_some found) proposal inside classed,← status]
      rfl

theorem attempts_recordWindow {lower : String → String} (rules : List AllowRule) (window : Window)
    (counter : MissCounter) (appClass : String) :
    attempts (recordWindow lower rules window counter) appClass = attempts counter appClass +
      if isAllowed lower rules window = false ∧ window.appClass = appClass ∧ denied lower appClass = false then 1 else 0 := by
  unfold recordWindow
  by_cases skipped : (alwaysDenied lower window || isAllowed lower rules window) = true
  · rw [if_pos skipped]
    have other : ¬(isAllowed lower rules window = false ∧ window.appClass = appClass ∧ denied lower appClass = false) := by
      rintro ⟨refused,same,free⟩
      subst same
      rw [refused,Bool.or_false] at skipped
      exact absurd (skipped.symm.trans free) (by decide)
    rw [if_neg other,Nat.add_zero]
  · rw [if_neg skipped,attempts_bump]
    have neither := Bool.or_eq_false_iff.mp (Bool.eq_false_iff.mpr skipped)
    by_cases same : window.appClass = appClass
    · subst same
      have free : denied lower window.appClass = false := neither.1
      simp [neither.2,free]
    · simp [same]

section
variable {lower : String → String} {s : Mining Text} {fails : String × String → Bool}
  {clock : String × String → Seconds}

theorem no_successes (positive : Positive s.counter) {appClass : String} (none : attempts s.counter appClass = 0) :
    successes fails s.counter appClass = 0 := by
  have bound := @successes_le fails s.counter positive appClass
  omega

theorem Accounted.step (accounted : Accounted lower s) (event : MiningEvent) :
    Accounted lower (miningStep lower s event) := by
  cases event with
  | isAllowed rules window =>
    refine ⟨accounted.keyed,?_,?_,?_⟩
    · simp only [miningStep,recordWindow]
      split
      · exact accounted.positive
      · exact accounted.positive.bump _
    · intro appClass always
      have apart := accounted.apart appClass always
      refine ⟨?_,apart.2⟩
      simp [miningStep,attempts_recordWindow,always,apart.1]
    · intro appClass free unset
      have counted := accounted.counted appClass free unset
      simp only [miningStep,attempts_recordWindow,free,and_true,counted]
      split <;> rfl
  | mine fails clock =>
    have keyed := @mineMisses_keyed Text fails clock s.counter s.db 0 accounted.keyed
    refine ⟨keyed,?_,?_,?_⟩
    · intro entry inside
      cases inside
    · intro appClass always
      obtain ⟨none,unset⟩ := accounted.apart appClass always
      refine ⟨rfl,?_⟩
      have same := @proposalOf_mined Text fails clock s.counter s.db 0 accounted.keyed appClass
      rw [no_successes accounted.positive none] at same
      rw [← unset]
      exact congrArg (fun row => (row.map Prod.fst) == some Status.pending) same
    · intro appClass _ unset
      exact if_neg fun set => absurd (unset.symm.trans set) (by decide)

theorem class_balanced_iff (accounted : Accounted lower s) (balanced : Balanced s) (appClass : String) :
    (∀ hits, proposalOf (mineMisses fails clock s.counter (s.db,0)).1 appClass = some (.pending,hits) →
      hits = s.refused appClass) ↔
      (GetsPending s fails appClass → successes fails s.counter appClass = attempts s.counter appClass) := by
  rw [proposalOf_mined s.counter 0 accounted.keyed]
  have succeeded : 0 < successes fails s.counter appClass ↔
      ∃ entry ∈ s.counter, entry.1.1 = appClass ∧ fails entry.1 = false := by
    simp [successes,List.length_pos_iff_exists_mem]
  cases row : proposalOf s.db appClass with
  | none =>
    have unset : pending s.db appClass = false := by simp [pending,row]
    have gets : GetsPending s fails appClass ↔ 0 < successes fails s.counter appClass := by
      rw [succeeded]
      simp [GetsPending,unset,row]
    rw [gets]
    cases count : successes fails s.counter appClass with
    | zero => exact iff_of_true (by intro hits none; cases none) (by intro absurd; omega)
    | succ turns =>
      have free : denied lower appClass = false := by
        cases always : denied lower appClass with
        | false => rfl
        | true =>
          have none := @no_successes Text s fails accounted.positive appClass (accounted.apart appClass always).1
          omega
      rw [accounted.counted appClass free unset,hit_none]
      simp
  | some pair =>
    obtain ⟨status,hits⟩ := pair
    by_cases open_ : status = .pending
    · subst open_
      have gets : GetsPending s fails appClass := .inl (pending_iff.mpr ⟨hits,row⟩)
      have before := balanced appClass hits row
      rw [hit_pending]
      simp only [Option.some.injEq,Prod.mk.injEq,true_and,forall_eq',gets,forall_const]
      omega
    · have never : ¬GetsPending s fails appClass := by
        rintro (set | ⟨none,_⟩)
        · obtain ⟨other,same⟩ := pending_iff.mp set
          rw [row] at same
          cases same
          exact open_ rfl
        · rw [row] at none
          cases none
      rw [hit_decided hits _ open_]
      exact iff_of_true (by intro other same; cases same; exact absurd rfl open_) (fun set => absurd set never)

theorem mined_account {appClass : String} {hits : Nat}
    (row : proposalOf (mineMisses fails clock s.counter (s.db,0)).1 appClass = some (.pending,hits)) :
    hits + attempts (miningStep lower s (.mine fails clock)).counter appClass =
        (miningStep lower s (.mine fails clock)).refused appClass ↔ hits = s.refused appClass := by
  have set := pending_iff.mpr ⟨hits,row⟩
  simp [miningStep,attempts,set]

theorem balanced_step (accounted : Accounted lower s) (balanced : Balanced s) (event : MiningEvent) :
    Balanced (miningStep lower s event) ↔ Single s event := by
  cases event with
  | isAllowed rules window =>
    refine iff_of_true ?_ trivial
    intro appClass hits row
    have before := balanced appClass hits row
    have free : denied lower appClass = false := by
      cases always : denied lower appClass with
      | false => rfl
      | true =>
        have set : pending s.db appClass = true := pending_iff.mpr ⟨hits,row⟩
        exact absurd (set.symm.trans (accounted.apart appClass always).2) (by decide)
    simp only [miningStep,attempts_recordWindow,free,and_true]
    split <;> omega
  | mine fails clock =>
    constructor
    · intro after entry inside gets
      have even := (@class_balanced_iff Text lower s fails clock accounted balanced entry.1.1).mp ?_ gets
      · exact (successes_eq_iff accounted.positive _).mp even entry inside rfl
      · intro hits row
        exact (mined_account row).mp (after entry.1.1 hits row)
    · intro single appClass hits row
      have even : GetsPending s fails appClass → successes fails s.counter appClass = attempts s.counter appClass :=
        fun gets => (successes_eq_iff accounted.positive appClass).mpr fun entry inside same =>
          single entry inside (same ▸ gets)
      exact (mined_account row).mpr
        ((@class_balanced_iff Text lower s fails clock accounted balanced appClass).mpr even hits row)

end

structure Fresh (s : Mining Text) : Prop where
  keyed : Keyed s.db
  counter : s.counter = []
  refused : s.refused = fun _ => 0
  decided : ∀ proposal ∈ s.db.proposals, proposal.status ≠ .pending

theorem Fresh.accounted {lower : String → String} {s : Mining Text} (fresh : Fresh s) :
    Accounted lower s ∧ Conserved s := by
  have unset : ∀ appClass, pending s.db appClass = false := by
    intro appClass
    refine Bool.eq_false_iff.mpr fun set => ?_
    obtain ⟨hits,row⟩ := pending_iff.mp set
    obtain ⟨proposal,first,same⟩ := Option.map_eq_some_iff.mp row
    exact fresh.decided proposal (List.mem_of_find?_eq_some first) (congrArg Prod.fst same)
  refine ⟨⟨fresh.keyed,?_,?_,?_⟩,?_⟩
  · rw [fresh.counter]
    intro entry inside
    cases inside
  · intro appClass _
    rw [fresh.counter]
    exact ⟨rfl,unset appClass⟩
  · intro appClass _ _
    rw [fresh.counter,fresh.refused]
    rfl
  · intro proposal inside status
    exact absurd status (fresh.decided proposal inside)

-- Attempts are conserved all along a run exactly if each drain meets a class with a pending
-- proposal in entries that were missed once and are upserted without a failure.
theorem attempts_conserved_iff (lower : String → String) {start : Mining Text} (fresh : Fresh start)
    (events : List MiningEvent) :
    (mining lower).Always Conserved start events ↔ (mining lower).Meets Single start events := by
  obtain ⟨accounted,conserved⟩ := @Fresh.accounted Text lower start fresh
  refine System.always_iff_meets (I:=Accounted lower) ?_ ?_ accounted conserved events
  · intro s event next held stepped
    cases stepped
    exact held.step event
  · intro s event next held even stepped
    cases stepped
    have after := held.step event
    rw [conserved_iff after.keyed]
    exact balanced_step held ((conserved_iff held.keyed).mp even) event

def emptyMining : Mining Unit := ⟨[],⟨[],[],[],0⟩,fun _ => 0⟩

theorem emptyMining_fresh : Fresh emptyMining where
  keyed := by constructor <;> (intro row inside; cases inside)
  counter := rfl
  refused := rfl
  decided := by intro row inside; cases inside

def footWindow : Window := ⟨"0x1","zsh","foot",1,(0,0),(800,600),false,false,7,0⟩

def refusal : MiningEvent := .isAllowed [] footWindow

def drain : MiningEvent := .mine (fun _ => false) (fun _ => 0)

theorem single_attempts_conserved : (mining id).Always Conserved emptyMining [refusal,drain,refusal,drain] := by
  refine (attempts_conserved_iff id emptyMining_fresh _).mpr ?_
  intro one first
  cases first
  refine ⟨trivial,?_⟩
  intro two second
  cases second
  refine ⟨by intro entry inside _; cases List.mem_singleton.mp inside; exact ⟨rfl,rfl⟩,?_⟩
  intro three third
  cases third
  refine ⟨trivial,?_⟩
  intro four fourth
  cases fourth
  exact ⟨by intro entry inside _; cases List.mem_singleton.mp inside; exact ⟨rfl,rfl⟩,trivial⟩

theorem repeated_attempts_lost : ¬∀ (lower : String → String) (start : Mining Unit), Fresh start →
    ∀ events, (mining lower).Always Conserved start events := by
  intro always
  have run := always id emptyMining emptyMining_fresh [refusal,refusal,refusal,drain]
  have last := run.played rfl ⟨1,"foot","*",1,0,.pending⟩ (List.mem_singleton_self _) rfl
  exact absurd last (by decide)

end HyprlandAgent.Learning
