import HyprlandAgent.Effects
import HyprlandAgent.PosixPath

-- Filesystem operations for the agent: which paths they may use.
namespace HyprlandAgent.Tools
open PosixPath

-- What a path is resolved against: the symbolic links, the working directory, the text
-- of `Path.home()`, and what `~` and `~user` expand to.
structure FileSystem where
  links : Links
  cwd : List Name
  working : ∀ name ∈ cwd, Plain name
  home : List Char
  expanduser : Name → List Char

def tilde (name : Name) : Bool := name.head? == some '~'

-- `Path(...).expanduser()`
def expanduser (fs : FileSystem) (path : Path) : Except Exc Path :=
  match path.root,path.parts with
  | [],first :: rest =>
    if tilde first then
      let homedir := fs.expanduser first
      if tilde homedir then .error (.other "Could not determine home directory.")
      else .ok { parse homedir with parts := (parse homedir).parts ++ rest }
    else .ok path
  | _,_ => .ok path

-- `Path(...).resolve()`
def resolve (fs : FileSystem) (path : Path) : Except Exc Path :=
  match realpath fs.links fs.cwd path.str with
  | .arrived names => .ok (parse ('/' :: join names))
  | .refused => .error (.other "lstat: embedded null character in path")

def isSymlink (fs : FileSystem) (path : Path) : Bool := (target fs.links path.parts).isSome

def within (prefixes : List Path) (path : Path) : Bool :=
  prefixes.any fun allowed => allowed.str.isPrefixOf path.str

def pathText (path : Path) : String := String.ofList path.str

def expandAndResolve (fs : FileSystem) (path : String) : Except Exc Path := do
  resolve fs (← expanduser fs (parse path.toList))

def resolveAndCheck (fs : FileSystem) (path : String) (allowedPrefixes : Option (List Path) := none) :
    Except Exc Path := do
  let p ← expandAndResolve fs path
  let prefixes := match allowedPrefixes with
    | some (first :: rest) => first :: rest
    | _ => [parse fs.home]
  if !within prefixes p then
    throw (.permission ("Path " ++ pathText p ++ " is outside allowed prefixes"))
  if isSymlink fs p then
    let target ← resolve fs p
    if !within prefixes target then
      throw (.permission ("Symlink " ++ pathText p ++ " resolves outside allowed prefixes"))
  return p

variable {fs : FileSystem} {path p : Path}

theorem resolve_rooted (resolved : resolve fs path = .ok p) :
    p.root = ['/'] ∧ ∀ name ∈ p.parts, Plain name := by
  unfold resolve at resolved
  cases arrived : realpath fs.links fs.cwd path.str with
  | refused => simp [arrived] at resolved
  | arrived names =>
    simp only [arrived,Except.ok.injEq] at resolved
    rw [← resolved]
    exact ⟨parse_root (realpath_plain fs.working arrived),parse_plain _⟩

theorem within_home (resolved : resolve fs path = .ok p) :
    within [parse fs.home] p = true ↔ Below (parse fs.home) p ∨ Beside (parse fs.home) p := by
  obtain ⟨rooted,plain⟩ := resolve_rooted resolved
  rw [← str_prefix_iff (root_cases fs.home) (parse_plain fs.home) rooted plain]
  simp [within,List.isPrefixOf_iff_prefix]

-- A symbolic link, which only a loop leaves, is resolved once more.
def Kept (fs : FileSystem) (p : Path) : Prop :=
  isSymlink fs p = true → ∃ target, resolve fs p = .ok target ∧
    (Below (parse fs.home) target ∨ Beside (parse fs.home) target)

theorem expanded_resolved {text : String} (resolved : expandAndResolve fs text = .ok p) :
    ∃ path, resolve fs path = .ok p := by
  unfold expandAndResolve at resolved
  cases expanded : expanduser fs (parse text.toList) with
  | error exc => simp [expanded,bind,Except.bind] at resolved
  | ok path => exact ⟨path,by simpa [expanded,bind,Except.bind] using resolved⟩

theorem link_kept : (∃ target, resolve fs p = .ok target ∧ within [parse fs.home] target = true) ↔
    ∃ target, resolve fs p = .ok target ∧
      (Below (parse fs.home) target ∨ Beside (parse fs.home) target) := by
  constructor
  · intro found
    obtain ⟨target,resolved,inside⟩ := found
    exact ⟨target,resolved,(within_home resolved).mp inside⟩
  · intro found
    obtain ⟨target,resolved,inside⟩ := found
    exact ⟨target,resolved,(within_home resolved).mpr inside⟩

theorem check_iff {text : String} {q : Path} (resolved : expandAndResolve fs text = .ok q) :
    resolveAndCheck fs text = .ok p ↔ q = p ∧ within [parse fs.home] q = true ∧
      (isSymlink fs q = true → ∃ target, resolve fs q = .ok target ∧ within [parse fs.home] target = true) := by
  unfold resolveAndCheck
  rw [resolved]
  by_cases inside : within [parse fs.home] q = true
  · by_cases link : isSymlink fs q = true
    · cases again : resolve fs q with
      | error exc => simp [bind,Except.bind,inside,link,again]
      | ok target =>
        by_cases stays : within [parse fs.home] target = true
        · simp [bind,Except.bind,inside,link,again,stays,pure,Except.pure]
        · simp [bind,Except.bind,inside,link,again,stays]
    · simp [bind,Except.bind,inside,link,pure,Except.pure]
  · simp [bind,Except.bind,inside]

theorem resolveAndCheck_iff {text : String} : resolveAndCheck fs text = .ok p ↔
    expandAndResolve fs text = .ok p ∧ (Below (parse fs.home) p ∨ Beside (parse fs.home) p) ∧ Kept fs p := by
  cases resolved : expandAndResolve fs text with
  | error exc => simp [resolveAndCheck,resolved,bind,Except.bind]
  | ok q =>
    obtain ⟨path,from_⟩ := expanded_resolved resolved
    rw [check_iff resolved,within_home from_,link_kept,Except.ok.injEq]
    constructor
    · intro passed
      obtain ⟨rfl,either,kept⟩ := passed
      exact ⟨rfl,either,kept⟩
    · intro passed
      obtain ⟨rfl,either,kept⟩ := passed
      exact ⟨rfl,either,kept⟩

-- What is returned lies in the home tree exactly if the text does not lead beside it, to a
-- sibling whose name starts with the name of the home directory.
theorem returned_below_home_iff (fs : FileSystem) (text : String) :
    (∀ p, resolveAndCheck fs text = .ok p → Below (parse fs.home) p) ↔
      ∀ p, expandAndResolve fs text = .ok p → ¬(Beside (parse fs.home) p ∧ Kept fs p) := by
  constructor
  · intro contained p resolved both
    obtain ⟨beside,kept⟩ := both
    have below := contained p (resolveAndCheck_iff.mpr ⟨resolved,.inr beside,kept⟩)
    exact below.not_beside beside
  · intro never p returned
    obtain ⟨resolved,either,kept⟩ := resolveAndCheck_iff.mp returned
    rcases either with below | beside
    · exact below
    · exact absurd ⟨beside,kept⟩ (never p resolved)

def plainHome : FileSystem where
  links := []
  cwd := []
  working := fun _ inside => absurd inside List.not_mem_nil
  home := "/home/user".toList
  expanduser := fun _ => "/home/user".toList

theorem sibling_home_passes : ¬∀ (fs : FileSystem) (text : String) (p : Path),
    resolveAndCheck fs text = .ok p → Below (parse fs.home) p := by
  intro contained
  have returned : resolveAndCheck plainHome "/home/user2/notes" =
      .ok ⟨['/'],["home".toList,"user2".toList,"notes".toList]⟩ := rfl
  have below := contained plainHome _ _ returned
  obtain ⟨back,same⟩ := below.2
  have names : (parse plainHome.home).parts = ["home".toList,"user".toList] := rfl
  rw [names] at same
  simp at same

end HyprlandAgent.Tools
