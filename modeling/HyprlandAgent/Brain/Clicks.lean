import HyprlandAgent.Awareness
import HyprlandAgent.Brain.ActionMap
import Mathlib.Data.List.Infix
import Mathlib.Data.List.Count

-- What the loop detector sees of a list of clicks.
namespace HyprlandAgent.Brain

theorem sorted_pair {key name : String} (inOrder : key ≤ name) (a b : Json) :
    [(key,a),(name,b)].insertionSort (fun a b => a.1 ≤ b.1) = [(key,a),(name,b)] := by
  simp [List.insertionSort,inOrder]

theorem swapped_pair {key name : String} (inOrder : ¬name ≤ key) (a b : Json) :
    [(name,b),(key,a)].insertionSort (fun a b => a.1 ≤ b.1) = [(key,a),(name,b)] := by
  simp [List.insertionSort,inOrder]

theorem key_eq (action : Action) : LoopDetector.key action =
    .obj [("kind",.str action.kind.value),("params",action.params.toJson.sortKeys)] := by
  simp only [LoopDetector.key,Json.sortKeys,sortFields]
  rw [sorted_pair (by decide)]

theorem key_moveTo (sx sy : Int) : LoopDetector.key (moveTo sx sy) =
    .obj [("kind",.str "mouse_move"),("params",.obj [("x",.int sx),("y",.int sy)])] := by
  have params : (moveTo sx sy).params.toJson = .obj [("y",.int sy),("x",.int sx)] := rfl
  rw [key_eq,params]
  simp only [Json.sortKeys,sortFields]
  rw [swapped_pair (by decide)]
  rfl

theorem key_clickWith (button : String) : LoopDetector.key (clickWith button) =
    .obj [("kind",.str "click"),("params",.obj [("button",.str button)])] := by
  have params : (clickWith button).params.toJson = .obj [("button",.str button)] := rfl
  rw [key_eq,params]
  rfl

theorem move_key_iff {sx sy tx ty : Int} :
    LoopDetector.key (moveTo sx sy) = LoopDetector.key (moveTo tx ty) ↔ (sx,sy) = (tx,ty) := by
  simp [key_moveTo]

theorem click_key_iff {button other : String} :
    LoopDetector.key (clickWith button) = LoopDetector.key (clickWith other) ↔ button = other := by
  simp [key_clickWith]

theorem move_click_keys (sx sy : Int) (button : String) :
    LoopDetector.key (moveTo sx sy) ≠ LoopDetector.key (clickWith button) := by
  simp [key_moveTo,key_clickWith]

def stuckAmong (detector : LoopDetector) : List Action → Bool
  | [] => false
  | action :: rest => (detector.observe action).2 || stuckAmong (detector.observe action).1 rest

structure Seen (detector : LoopDetector) (keys : List Json) : Prop where
  history : detector.history.reverse = keys.take 6
  window : detector.window = 6
  threshold : detector.repeatThreshold = 3

variable {detector : LoopDetector} {keys : List Json}

theorem reverse_last {α : Type} (list : List α) (n : Nat) :
    (list.drop (list.length - n)).reverse = list.reverse.take n := by
  rw [List.reverse_drop]
  by_cases long : n ≤ list.length
  · rw [Nat.sub_sub_self long]
  · have short : list.reverse.length ≤ n := by
      rw [List.length_reverse]
      omega
    rw [List.take_of_length_le short,List.take_of_length_le]
    rw [List.length_reverse]
    omega

theorem observed_history (seen : Seen detector keys) (action : Action) :
    (detector.observe action).1.history.reverse = (LoopDetector.key action :: keys).take 6 := by
  simp only [LoopDetector.observe]
  rw [reverse_last,List.reverse_append,seen.history,seen.window]
  simp [List.take_take]

theorem seen_observe (seen : Seen detector keys) (action : Action) :
    Seen (detector.observe action).1 (LoopDetector.key action :: keys) :=
  ⟨observed_history seen action,seen.window,seen.threshold⟩

theorem observe_iff (seen : Seen detector keys) (action : Action) :
    (detector.observe action).2 = true ↔
      3 ≤ ((LoopDetector.key action :: keys).take 6).count (LoopDetector.key action) := by
  rw [← observed_history seen action,List.count_reverse,List.count_eq_length_filter]
  simp [LoopDetector.observe,seen.threshold]

structure Click where
  sx : Int
  sy : Int
  button : String

def Click.actions (click : Click) : List Action := [moveTo click.sx click.sy,clickWith click.button]

abbrev Pixel := Except String Int × Except String Int

def Click.pixel (click : Click) : Pixel := (.ok click.sx,.ok click.sy)

def Thrice {α : Type} (list : List α) : Prop := ∃ value, [value,value,value] <:+: list

theorem thrice_cons {α : Type} {first : α} {rest : List α} :
    Thrice (first :: rest) ↔ [first,first] <+: rest ∨ Thrice rest := by
  constructor
  · intro thrice
    obtain ⟨value,inside⟩ := thrice
    rcases List.infix_cons_iff.mp inside with front | later
    · obtain ⟨rfl,next⟩ := List.cons_prefix_cons.mp front
      exact .inl next
    · exact .inr ⟨value,later⟩
  · intro either
    rcases either with front | later
    · exact ⟨first,List.infix_cons_iff.mpr (.inl (List.cons_prefix_cons.mpr ⟨rfl,front⟩))⟩
    · obtain ⟨value,inside⟩ := later
      exact ⟨value,List.infix_cons_iff.mpr (.inr inside)⟩

theorem thrice_reverse {α : Type} {list : List α} : Thrice list.reverse ↔ Thrice list := by
  constructor
  · intro thrice
    obtain ⟨value,inside⟩ := thrice
    exact ⟨value,List.reverse_infix.mp inside⟩
  · intro thrice
    obtain ⟨value,inside⟩ := thrice
    exact ⟨value,List.reverse_infix.mpr inside⟩

theorem not_thrice_nil {α : Type} : ¬Thrice ([] : List α) := by
  intro thrice
  obtain ⟨value,inside⟩ := thrice
  exact absurd inside.length_le (by simp)

theorem thrice_append {α : Type} (front : List α) {back : List α} (thrice : Thrice back) :
    Thrice (front ++ back) := by
  obtain ⟨value,inside⟩ := thrice
  exact ⟨value,inside.trans (List.suffix_append front back).isInfix⟩

def keysOf (latest : List Click) : List Json :=
  latest.flatMap fun click =>
    [LoopDetector.key (clickWith click.button),LoopDetector.key (moveTo click.sx click.sy)]

variable {latest : List Click}

theorem newest_keys (b a : Click) (rest : List Click) : ∃ older : List Json,
    (keysOf (b :: a :: rest)).take 5 =
      [LoopDetector.key (clickWith b.button),LoopDetector.key (moveTo b.sx b.sy),
        LoopDetector.key (clickWith a.button),LoopDetector.key (moveTo a.sx a.sy)] ++ older ∧
    ∀ key ∈ older, ∃ button, key = LoopDetector.key (clickWith button) := by
  cases rest with
  | nil => exact ⟨[],rfl,fun _ inside => absurd inside List.not_mem_nil⟩
  | cons z more =>
    refine ⟨[LoopDetector.key (clickWith z.button)],rfl,?_⟩
    intro key inside
    exact ⟨z.button,List.mem_singleton.mp inside⟩

theorem move_observed (seen : Seen detector (keysOf latest)) (click : Click) :
    (detector.observe (moveTo click.sx click.sy)).2 = true ↔
      [click.pixel,click.pixel] <+: latest.map Click.pixel := by
  rw [observe_iff seen,List.take_succ_cons]
  rcases latest with _ | ⟨b,_ | ⟨a,rest⟩⟩
  · simp [keysOf]
  · have apart := move_click_keys click.sx click.sy b.button
    simp only [keysOf,List.flatMap_cons,List.flatMap_nil,List.append_nil]
    simp only [List.take_succ_cons,List.take_nil,List.count_cons_self,ne_eq,apart.symm,not_false_eq_true,
      List.count_cons_of_ne,List.count_cons,List.count_nil,beq_iff_eq,Nat.zero_add,List.map_cons,List.map_nil,
      List.cons_prefix_cons,List.prefix_nil,List.cons_ne_self,and_false,iff_false,not_le]
    grind
  · obtain ⟨older,newest,clicks⟩ := newest_keys b a rest
    have none_ : older.count (LoopDetector.key (moveTo click.sx click.sy)) = 0 := by
      apply List.count_eq_zero.mpr
      intro inside
      obtain ⟨button,same⟩ := clicks _ inside
      exact move_click_keys _ _ _ same
    have left := (move_click_keys click.sx click.sy b.button).symm
    have right := (move_click_keys click.sx click.sy a.button).symm
    rw [newest]
    simp only [List.count_cons,none_,List.cons_append,List.nil_append]
    simp only [beq_iff_eq,left,right,move_key_iff,if_false,if_true]
    simp only [Prod.mk.injEq,Nat.zero_add,Nat.add_zero,Click.pixel,List.map_cons,List.cons_prefix_cons,
      Except.ok.injEq,List.nil_prefix,and_true]
    grind

theorem click_observed (click : Click)
    (seen : Seen detector (LoopDetector.key (moveTo click.sx click.sy) :: keysOf latest)) :
    (detector.observe (clickWith click.button)).2 = true ↔
      [click.button,click.button] <+: latest.map Click.button := by
  rw [observe_iff seen,List.take_succ_cons,List.take_succ_cons]
  have own := move_click_keys click.sx click.sy click.button
  rcases latest with _ | ⟨b,_ | ⟨a,rest⟩⟩
  · simp [keysOf,own]
  · have apart := move_click_keys b.sx b.sy click.button
    simp only [keysOf,List.flatMap_cons,List.flatMap_nil,List.append_nil]
    simp only [List.take_succ_cons,List.take_nil,List.count_cons_self,ne_eq,own,not_false_eq_true,
      List.count_cons_of_ne,List.count_cons,apart,List.count_nil,beq_iff_eq,Nat.zero_add,List.map_cons,
      List.map_nil,List.cons_prefix_cons,List.prefix_nil,List.cons_ne_self,and_false,iff_false,not_le]
    grind
  · have left := move_click_keys b.sx b.sy click.button
    have right := move_click_keys a.sx a.sy click.button
    simp only [keysOf,List.flatMap_cons,List.cons_append,List.nil_append,List.take_succ_cons,List.take_zero]
    simp only [List.count_cons,List.count_nil,beq_iff_eq,own,left,right,click_key_iff,if_false,if_true]
    simp only [Nat.add_zero,Nat.zero_add,List.map_cons,List.cons_prefix_cons,List.nil_prefix,and_true]
    grind

theorem stuck_cons (seen : Seen detector (keysOf latest)) (click : Click) (rest : List Action) :
    ∃ next, Seen next (keysOf (click :: latest)) ∧
      (stuckAmong detector (click.actions ++ rest) = false ↔
        ¬[click.pixel,click.pixel] <+: latest.map Click.pixel ∧
        ¬[click.button,click.button] <+: latest.map Click.button ∧ stuckAmong next rest = false) := by
  have moved := seen_observe seen (moveTo click.sx click.sy)
  refine ⟨_,seen_observe moved (clickWith click.button),?_⟩
  rw [← move_observed seen click,← click_observed click moved]
  simp [Click.actions,stuckAmong]

theorem stuck_after (clicks : List Click) (seen : Seen detector (keysOf latest))
    (pixels : ¬Thrice (latest.map Click.pixel)) (buttons : ¬Thrice (latest.map Click.button)) :
    stuckAmong detector (clicks.flatMap Click.actions) = false ↔
      ¬Thrice ((clicks.reverse ++ latest).map Click.pixel) ∧
      ¬Thrice ((clicks.reverse ++ latest).map Click.button) := by
  induction clicks generalizing detector latest with
  | nil => simp [stuckAmong,pixels,buttons]
  | cons click rest ih =>
    obtain ⟨next,continued,decided⟩ := stuck_cons seen click (rest.flatMap Click.actions)
    have order : (click :: rest).reverse ++ latest = rest.reverse ++ click :: latest := by simp
    have pixel_step : Thrice ((click :: latest).map Click.pixel) ↔
        [click.pixel,click.pixel] <+: latest.map Click.pixel := by
      rw [List.map_cons,thrice_cons]
      simp [pixels]
    have button_step : Thrice ((click :: latest).map Click.button) ↔
        [click.button,click.button] <+: latest.map Click.button := by
      rw [List.map_cons,thrice_cons]
      simp [buttons]
    rw [List.flatMap_cons,decided,order,← pixel_step,← button_step]
    by_cases now : Thrice ((click :: latest).map Click.pixel) ∨ Thrice ((click :: latest).map Click.button)
    · rcases now with pixel | button
      · have later := thrice_append (rest.reverse.map Click.pixel) pixel
        rw [← List.map_append] at later
        exact ⟨fun held => absurd pixel held.1,fun held => absurd later held.1⟩
      · have later := thrice_append (rest.reverse.map Click.button) button
        rw [← List.map_append] at later
        exact ⟨fun held => absurd button held.2.1,fun held => absurd later held.2⟩
    · obtain ⟨pixel,button⟩ := not_or.mp now
      rw [ih continued pixel button]
      exact ⟨fun held => held.2.2,fun held => ⟨pixel,button,held⟩⟩

structure ClickCall where
  verb : String
  x : Json
  y : Json
  isClick : verb ∈ clickVerbs

namespace ClickCall
variable (n : Runtime) (scaleX scaleY : Seconds) (call : ClickCall)

def expand : Except Exc (List Action) :=
  computerActions n call.verb { x := call.x, y := call.y, scaleX := scaleX, scaleY := scaleY }

def button : String := removesuffix call.verb "_click"

def pixel : Pixel := (n.scaled call.x scaleX,n.scaled call.y scaleY)

end ClickCall

variable {n : Runtime} {scaleX scaleY : Seconds}

theorem expand_ok {call : ClickCall} {actions : List Action}
    (expanded : call.expand n scaleX scaleY = .ok actions) : ∃ click : Click,
      click.actions = actions ∧ click.button = call.button ∧ click.pixel = call.pixel n scaleX scaleY := by
  have shape := @computerActions_click n call.verb
    { x := call.x, y := call.y, scaleX := scaleX, scaleY := scaleY }
  cases x : n.scaled call.x scaleX with
  | error text => simp [ClickCall.expand,computerActions,x,converted,Except.mapError,bind,Except.bind] at expanded
  | ok sx =>
    cases y : n.scaled call.y scaleY with
    | error text => simp [ClickCall.expand,computerActions,x,y,converted,Except.mapError,bind,Except.bind] at expanded
    | ok sy =>
      have same := (shape call.isClick x y).symm.trans expanded
      cases same
      exact ⟨⟨sx,sy,call.button⟩,rfl,rfl,by rw [ClickCall.pixel,x,y]; rfl⟩

theorem expand_all {calls : List ClickCall} {actions : List (List Action)}
    (expanded : calls.mapM (ClickCall.expand n scaleX scaleY) = .ok actions) :
    ∃ clicks : List Click, clicks.flatMap Click.actions = actions.flatten ∧
      clicks.map Click.button = calls.map ClickCall.button ∧
      clicks.map Click.pixel = calls.map (ClickCall.pixel n scaleX scaleY) := by
  induction calls generalizing actions with
  | nil =>
    cases expanded
    exact ⟨[],rfl,rfl,rfl⟩
  | cons call rest ih =>
    rw [List.mapM_cons] at expanded
    cases first : call.expand n scaleX scaleY with
    | error exc => simp [first,bind,Except.bind] at expanded
    | ok group =>
      cases others : rest.mapM (ClickCall.expand n scaleX scaleY) with
      | error exc => simp [first,others,bind,Except.bind] at expanded
      | ok groups =>
        simp only [first,others,bind,Except.bind,pure,Except.pure,Except.ok.injEq] at expanded
        obtain ⟨click,same,button,pixel⟩ := expand_ok first
        obtain ⟨clicks,all,buttons,pixels⟩ := ih others
        refine ⟨click :: clicks,?_,?_,?_⟩
        · rw [← expanded,List.flatMap_cons,List.flatten_cons,same,all]
        · rw [List.map_cons,List.map_cons,button,buttons]
        · rw [List.map_cons,List.map_cons,pixel,pixels]

theorem seen_nothing : Seen {} (keysOf []) := ⟨rfl,rfl,rfl⟩

-- Clicks are taken for a loop exactly when three in a row use one button or meet one pixel.
theorem clicks_unstuck_iff {calls : List ClickCall} {actions : List (List Action)}
    (expanded : calls.mapM (ClickCall.expand n scaleX scaleY) = .ok actions) :
    stuckAmong {} actions.flatten = false ↔
      ¬Thrice (calls.map ClickCall.button) ∧ ¬Thrice (calls.map (ClickCall.pixel n scaleX scaleY)) := by
  obtain ⟨clicks,same,buttons,pixels⟩ := expand_all expanded
  rw [← same,stuck_after clicks seen_nothing not_thrice_nil not_thrice_nil,List.append_nil]
  rw [List.map_reverse,List.map_reverse,thrice_reverse,thrice_reverse,buttons,pixels]
  exact and_comm

def leftClick (x y : Int) : ClickCall := ⟨"left_click",.int x,.int y,List.mem_cons_self⟩

def rightClick (x y : Int) : ClickCall :=
  ⟨"right_click",.int x,.int y,List.mem_cons_of_mem _ List.mem_cons_self⟩

theorem expand_plain {verb button : String} (isClick : verb ∈ clickVerbs)
    (named : removesuffix verb "_click" = button) (x y : Int) :
    ClickCall.expand plainRuntime 2 2 ⟨verb,.int x,.int y,isClick⟩ = .ok (Click.actions ⟨2 * x,2 * y,button⟩) := by
  rw [← named]
  exact @computerActions_click _ _ ⟨.int x,.int y,.str "",.str "",.str "down",.int 3,2,2⟩ _ _ isClick
    (plain_double x) (plain_double y)

theorem expand_leftClick (x y : Int) : (leftClick x y).expand plainRuntime 2 2 =
    .ok (Click.actions ⟨2 * x,2 * y,"left"⟩) := expand_plain _ (by decide) x y

theorem expand_rightClick (x y : Int) : (rightClick x y).expand plainRuntime 2 2 =
    .ok (Click.actions ⟨2 * x,2 * y,"right"⟩) := expand_plain _ (by decide) x y

theorem mixed_clicks_unstuck : stuckAmong {}
    ([(⟨2,2,"left"⟩ : Click),⟨4,4,"left"⟩,⟨6,6,"right"⟩].map Click.actions).flatten = false := by
  have expanded : [leftClick 1 1,leftClick 2 2,rightClick 3 3].mapM (ClickCall.expand plainRuntime 2 2) =
      .ok ([(⟨2,2,"left"⟩ : Click),⟨4,4,"left"⟩,⟨6,6,"right"⟩].map Click.actions) := by
    simp [List.mapM_cons,expand_leftClick,expand_rightClick,bind,Except.bind,pure,Except.pure]
  refine (clicks_unstuck_iff expanded).mpr ⟨?_,?_⟩
  · intro thrice
    obtain ⟨value,inside⟩ := thrice
    have whole := inside.eq_of_length rfl
    simp only [List.map_cons,List.map_nil,List.cons.injEq] at whole
    exact absurd (whole.1.symm.trans whole.2.2.1) (by decide)
  · intro thrice
    obtain ⟨value,inside⟩ := thrice
    have whole := inside.eq_of_length rfl
    simp only [List.map_cons,List.map_nil,List.cons.injEq] at whole
    have same : plainRuntime.scaled (.int 1) 2 = plainRuntime.scaled (.int 2) 2 :=
      congrArg Prod.fst (whole.1.symm.trans whole.2.1)
    rw [plain_double,plain_double] at same
    exact absurd (Except.ok.inj same) (by decide)

theorem three_targets_stuck : ¬∀ (calls : List ClickCall) (actions : List (List Action)),
    calls.Pairwise (fun a b => ¬(a.x = b.x ∧ a.y = b.y)) →
    calls.mapM (ClickCall.expand plainRuntime 2 2) = .ok actions → stuckAmong {} actions.flatten = false := by
  intro unstuck
  have apart : [leftClick 1 1,leftClick 2 2,leftClick 3 3].Pairwise (fun a b => ¬(a.x = b.x ∧ a.y = b.y)) := by
    simp [leftClick]
  have expanded : [leftClick 1 1,leftClick 2 2,leftClick 3 3].mapM (ClickCall.expand plainRuntime 2 2) =
      .ok ([(⟨2,2,"left"⟩ : Click),⟨4,4,"left"⟩,⟨6,6,"left"⟩].map Click.actions) := by
    simp [List.mapM_cons,expand_leftClick,bind,Except.bind,pure,Except.pure]
  have clicks : stuckAmong {} ([(⟨2,2,"left"⟩ : Click),⟨4,4,"left"⟩,⟨6,6,"left"⟩].flatMap Click.actions) = false :=
    unstuck _ _ apart expanded
  have unlike := (stuck_after _ seen_nothing not_thrice_nil not_thrice_nil).mp clicks
  exact unlike.2 ⟨"left",List.infix_refl _⟩

end HyprlandAgent.Brain
