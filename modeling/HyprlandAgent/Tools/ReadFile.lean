import HyprlandAgent.Tools.Filesystem

-- Reading a file in pages: what the model gets of a text for an offset and a limit.
namespace HyprlandAgent.Tools
open PosixPath

def defaultReadCap : Int := 65536

-- `text[start:]` and `text[:stop]`; a negative index counts from the end.
def sliceFrom (text : List Char) (start : Int) : List Char :=
  text.drop (if start < 0 then start + text.length else start).toNat

def sliceTo (text : List Char) (stop : Int) : List Char :=
  text.take (if stop < 0 then stop + text.length else stop).toNat

-- The header that says that the text was cut, and what is left of the text.
structure Page where
  header : List Char
  body : List Char
  deriving DecidableEq, Repr

def Page.text (page : Page) : List Char := page.header ++ page.body

def truncationHeader (total shown : Nat) : List Char :=
  ("... [truncated, " ++ toString total ++ " total chars, showing last " ++ toString shown ++ "]\n").toList

def window (text : List Char) (offset limit : Int) : List Char :=
  let text := if offset = 0 then text else sliceFrom text offset
  if limit = 0 then text else sliceTo text limit

def cap (readCap : Int) (text : List Char) : Page :=
  if (text.length : Int) > readCap then
    let kept := sliceFrom text (-readCap)
    ⟨truncationHeader text.length kept.length,kept⟩
  else ⟨[],text⟩

-- The files: which paths are files, and what `read_text(errors="replace")` gives of them.
structure Files where
  isFile : Path → Bool
  readText : Path → Except Exc (List Char)

def readPage (fs : FileSystem) (files : Files) (path : String) (offset : Int := 0) (limit : Int := 0)
    (readCap : Int := defaultReadCap) : Except Exc Page := do
  let p ← resolveAndCheck fs path
  if !files.isFile p then
    throw (.fileNotFound ("Not a file: " ++ pathText p))
  let text ← files.readText p
  return cap readCap (window text offset limit)

def readFile (fs : FileSystem) (files : Files) (path : String) (offset : Int := 0) (limit : Int := 0)
    (readCap : Int := defaultReadCap) : Except Exc String := do
  let page ← readPage fs files path offset limit readCap
  return String.ofList page.text

def paging (fs : FileSystem) (files : Files) (path : String) (limit : Nat) : Nat → Except Exc (List Char)
  | 0 => .ok []
  | count + 1 => do
    let before ← paging fs files path limit count
    let page ← readPage fs files path (count * limit : Nat) limit
    return before ++ page.body

def Readable (fs : FileSystem) (files : Files) (path : String) (text : List Char) : Prop :=
  ∃ p, resolveAndCheck fs path = .ok p ∧ files.isFile p = true ∧ files.readText p = .ok text

variable {fs : FileSystem} {files : Files} {path : String} {text : List Char}

theorem readPage_eq (found : Readable fs files path text) (offset limit readCap : Int) :
    readPage fs files path offset limit readCap = .ok (cap readCap (window text offset limit)) := by
  obtain ⟨p,resolved,file,read⟩ := found
  simp [readPage,resolved,file,read,bind,Except.bind,pure,Except.pure]

theorem sliceFrom_nat (text : List Char) (start : Nat) : sliceFrom text start = text.drop start := by
  have forward : ¬(start : Int) < 0 := by omega
  rw [sliceFrom,if_neg forward,Int.toNat_natCast]

theorem sliceTo_nat (text : List Char) (stop : Nat) : sliceTo text stop = text.take stop := by
  have forward : ¬(stop : Int) < 0 := by omega
  rw [sliceTo,if_neg forward,Int.toNat_natCast]

theorem window_page (text : List Char) (offset : Nat) {limit : Nat} (positive : 1 ≤ limit) :
    window text offset limit = (text.drop offset).take limit := by
  have nonzero : ¬(limit : Int) = 0 := by omega
  unfold window
  rw [if_neg nonzero,sliceTo_nat]
  by_cases first : offset = 0
  · simp [first]
  · have later : ¬(offset : Int) = 0 := by omega
    rw [if_neg later,sliceFrom_nat]

theorem cap_small {readCap : Int} (small : (text.length : Int) ≤ readCap) : (cap readCap text).body = text := by
  simp [cap,Int.not_lt.mpr small]

theorem cap_length {readCap : Int} (positive : 1 ≤ readCap) :
    (cap readCap text).body.length = min text.length readCap.toNat := by
  unfold cap
  split
  · have negative : -readCap < 0 := by omega
    simp only [sliceFrom,negative,if_true,List.length_drop]
    omega
  · simp only
    omega

theorem paging_succ (found : Readable fs files path text) {limit : Nat} (positive : 1 ≤ limit)
    {count : Nat} {before : List Char} (read : paging fs files path limit count = .ok before) :
    paging fs files path limit (count + 1) =
      .ok (before ++ (cap defaultReadCap ((text.drop (count * limit)).take limit)).body) := by
  rw [paging,read,readPage_eq found,window_page text _ positive]
  rfl

theorem paging_small (found : Readable fs files path text) {limit : Nat} (positive : 1 ≤ limit)
    (small : limit ≤ 65536 ∨ text.length ≤ 65536) (count : Nat) :
    paging fs files path limit count = .ok (text.take (count * limit)) := by
  induction count with
  | zero => simp [paging]
  | succ count ih =>
    have fits : (((text.drop (count * limit)).take limit).length : Int) ≤ defaultReadCap := by
      simp only [List.length_take,List.length_drop,defaultReadCap]
      omega
    rw [paging_succ found positive ih,cap_small fits,Nat.succ_mul,List.take_add]

theorem paging_short (found : Readable fs files path text) {limit : Nat} (large : 65536 < limit)
    (long : 65536 < text.length) (count : Nat) :
    ∃ bodies, paging fs files path limit (count + 1) = .ok bodies ∧
      bodies.length < min text.length ((count + 1) * limit) := by
  have positive : 1 ≤ limit := by omega
  have length (start : Nat) : (cap defaultReadCap ((text.drop start).take limit)).body.length =
      min ((text.drop start).take limit).length defaultReadCap.toNat := cap_length (by decide)
  simp only [List.length_take,List.length_drop,defaultReadCap] at length
  induction count with
  | zero =>
    refine ⟨_,paging_succ found positive rfl,?_⟩
    have first := length (0 * limit)
    simp only [List.nil_append,defaultReadCap]
    omega
  | succ count ih =>
    obtain ⟨before,read,shorter⟩ := ih
    refine ⟨_,paging_succ found positive read,?_⟩
    have last := length ((count + 1) * limit)
    simp only [List.length_append,defaultReadCap]
    rw [Nat.succ_mul (count + 1)]
    omega

-- Pages tile the text exactly where the cap does not reach into a page.
theorem pages_tile_iff (found : Readable fs files path text) {limit count : Nat} (positive : 1 ≤ limit)
    (enough : text.length ≤ count * limit) :
    paging fs files path limit count = .ok text ↔ limit ≤ 65536 ∨ text.length ≤ 65536 := by
  constructor
  · intro whole
    refine Decidable.byContradiction fun beyond => ?_
    obtain ⟨large,long⟩ := not_or.mp beyond
    cases count with
    | zero => omega
    | succ count =>
      obtain ⟨bodies,read,shorter⟩ :=
        paging_short found (Nat.lt_of_not_le large) (Nat.lt_of_not_le long) count
      rw [whole] at read
      cases read
      omega
  · intro small
    rw [paging_small found positive small,List.take_of_length_le enough]

def holding (text : List Char) : Files := ⟨fun _ => true,fun _ => .ok text⟩

theorem notes_readable (text : List Char) : Readable plainHome (holding text) "/home/user/notes" text :=
  ⟨⟨['/'],["home".toList,"user".toList,"notes".toList]⟩,rfl,rfl,rfl⟩

theorem greeting_tiled : paging plainHome (holding "hello".toList) "/home/user/notes" 2 3 = .ok "hello".toList :=
  (pages_tile_iff (notes_readable "hello".toList) (by decide) (by decide)).mpr (.inl (by decide))

theorem large_page_loses : ¬∀ (fs : FileSystem) (files : Files) (path : String) (text : List Char)
    (limit count : Nat), Readable fs files path text → 1 ≤ limit → text.length ≤ count * limit →
      paging fs files path limit count = .ok text := by
  intro tiles
  let text := List.replicate 65537 'a'
  have length : text.length = 65537 := List.length_replicate
  have whole := tiles plainHome (holding text) "/home/user/notes" text 65537 1 (notes_readable text)
    (by omega) (by omega)
  obtain ⟨bodies,read,shorter⟩ := paging_short (notes_readable text) (by omega : 65536 < 65537) (by omega) 0
  rw [whole] at read
  cases read
  omega

end HyprlandAgent.Tools
