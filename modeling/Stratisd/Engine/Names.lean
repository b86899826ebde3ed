import Mathlib.Data.List.SplitOn
import Stratisd.Engine.Types

/-! The names of pools and filesystems. -/

namespace Stratisd.Engine

open Run List

/-! ### Characters -/

/-- `char::is_control`. -/
def isControl (c : Char) : Bool := c.toNat < 0x20 || (0x7f ≤ c.toNat && c.toNat ≤ 0x9f)

/-- `char::is_whitespace`. -/
def isWhiteSpace (c : Char) : Bool :=
  (0x9 ≤ c.toNat && c.toNat ≤ 0xd) || c.toNat == 0x20 || c.toNat == 0x85 || c.toNat == 0xa0 ||
    c.toNat == 0x1680 || (0x2000 ≤ c.toNat && c.toNat ≤ 0x200a) || c.toNat == 0x2028 ||
    c.toNat == 0x2029 || c.toNat == 0x202f || c.toNat == 0x205f || c.toNat == 0x3000

/-- The class `[0-9A-Za-z#+-.:=@_/]`, in which `+-.` is a range. -/
def inSymlinks (c : Char) : Bool :=
  ('0' ≤ c && c ≤ '9') || ('A' ≤ c && c ≤ 'Z') || ('a' ≤ c && c ≤ 'z') || c == '#' ||
    ('+' ≤ c && c ≤ '.') || c == ':' || c == '=' || c == '@' || c == '_' || c == '/'

/-- What `NAME_UDEVREGEX` finds. -/
def notInSymlinks (c : Char) : Bool := c.toNat < 0x80 && !inSymlinks c

/-- `str::trim`. -/
def trim (cs : List Char) : List Char :=
  ((cs.dropWhile isWhiteSpace).reverse.dropWhile isWhiteSpace).reverse

/-! ### Paths -/

inductive Component where
  | rootDir
  | curDir
  | parentDir
  | normal (name : List Char)
  deriving DecidableEq

/-- The component that stands between two separators, if it counts. -/
def Component.ofSegment : List Char → Option Component
  | [] => none
  | ['.'] => none
  | ['.', '.'] => some .parentDir
  | name => some (.normal name)

/-- `Path::is_absolute`. -/
def isAbsolute (path : List Char) : Bool := path.head? == some '/'

/-- `Path::components`. A period counts only at the front. -/
def components (path : List Char) : List Component :=
  let segments := path.splitOn '/'
  let first :=
    if isAbsolute path then [.rootDir]
    else if segments.head? = some ['.'] then [.curDir]
    else []
  first ++ segments.filterMap Component.ofSegment

/-! ### Names -/

def validateName (name : String) : StratisResult Unit :=
  let chars := name.toList
  if '\x00' ∈ chars then .err (.msg s!"Name contains NULL characters: {name}")
  else if name = "." ∨ name = ".." then .err (.msg s!"Name is . or .. : {name}")
  else if name.utf8ByteSize > 255 then .err (.msg s!"Name has more than 255 bytes: {name}")
  else if name.utf8ByteSize ≠ (String.ofList (trim chars)).utf8ByteSize then
    .err (.msg s!"Name contains leading or trailing space: {name}")
  else if chars.any isControl then .err (.msg s!"Name contains control characters: {name}")
  else if chars.any notInSymlinks then
    .err (.msg s!"Name contains characters not allowed in udev symlinks: {name}")
  else if (components chars).length ≠ 1 then
    .err (.msg s!"Name is a path with 0 or more than 1 components: {name}")
  else if isAbsolute chars then .err (.msg s!"Name is an absolute path: {name}")
  else .ok ()

/-- What it takes to be a name, check by check. -/
theorem validateName_eq_ok {name : String} :
    validateName name = .ok () ↔
      '\x00' ∉ name.toList ∧ (name ≠ "." ∧ name ≠ "..") ∧ name.utf8ByteSize ≤ 255 ∧
        name.utf8ByteSize = (String.ofList (trim name.toList)).utf8ByteSize ∧
        (∀ c ∈ name.toList, isControl c = false) ∧ (∀ c ∈ name.toList, notInSymlinks c = false) ∧
        (components name.toList).length = 1 ∧ isAbsolute name.toList = false := by
  simp only [validateName, Outcome.ite_err_eq_ok, not_or, not_lt, not_not, any_eq_true,
    not_exists, not_and, Bool.not_eq_true, and_true]

/-! ### One component -/

/-- The components between the separators of a path. -/
def segments (path : List Char) : List Component :=
  (path.splitOn '/').filterMap Component.ofSegment

theorem segments_append_cons (p q : List Char) :
    segments (p ++ '/' :: q) = segments p ++ segments q := by
  unfold segments
  rw [splitOn_eq_splitOnP, splitOnP_append_cons p q (by simp), filterMap_append]
  rfl

@[simp] theorem segments_nil : segments [] = [] := rfl

theorem splitOn_of_notMem {path : List Char} (h : '/' ∉ path) : path.splitOn '/' = [path] := by
  rw [splitOn_eq_splitOnP]
  refine splitOnP_eq_singleton fun c hc => ?_
  simp only [beq_eq_false_iff_ne]
  rintro rfl
  exact h hc

theorem Component.ofSegment_inj {s t : List Char} {c : Component}
    (hs : Component.ofSegment s = some c) (ht : Component.ofSegment t = some c) : s = t := by
  unfold Component.ofSegment at hs ht
  split at hs <;> split at ht <;> grind

theorem Component.ofSegment_eq_none {s : List Char} :
    Component.ofSegment s = none ↔ s = [] ∨ s = ['.'] := by
  unfold Component.ofSegment
  split <;> simp_all

theorem components_of_notMem {path : List Char} (h : '/' ∉ path) (hne : path ≠ [])
    (hdot : path ≠ ['.']) :
    ∃ c, Component.ofSegment path = some c ∧ segments path = [c] ∧ components path = [c] := by
  have hsplit := splitOn_of_notMem h
  have hsome : (Component.ofSegment path).isSome := by
    rw [Option.isSome_iff_ne_none, Ne, Component.ofSegment_eq_none]
    simp [hne, hdot]
  obtain ⟨c, hc⟩ := Option.isSome_iff_exists.1 hsome
  have habs : isAbsolute path = false := by
    obtain ⟨d, ds, rfl⟩ := exists_cons_of_ne_nil hne
    have hd : d ≠ '/' := fun hd => h (by simp [hd])
    simpa [isAbsolute] using hd
  refine ⟨c, hc, ?_, ?_⟩
  · simp [segments, hsplit, hc]
  · simp [components, hsplit, hc, habs, hdot]

/-! ### The characters of a name -/

/-- The ASCII characters that the class lists one by one or in the ranges of digits and letters, the
separator apart. -/
def listed (c : Char) : Bool :=
  ('0' ≤ c && c ≤ '9') || ('A' ≤ c && c ≤ 'Z') || ('a' ≤ c && c ≤ 'z') || c == '#' || c == '+' ||
    c == '-' || c == '.' || c == ':' || c == '=' || c == '@' || c == '_'

theorem plus_to_period (c : Char) :
    ('+' ≤ c && c ≤ '.') = (c == '+' || c == ',' || c == '-' || c == '.') := by
  rw [Bool.eq_iff_iff]
  simp only [Bool.and_eq_true, decide_eq_true_eq, Bool.or_eq_true, beq_iff_eq, Char.le_def,
    UInt32.le_iff_toNat_le, Char.ext_iff, ← UInt32.toNat_inj]
  simp only [Char.reduceVal, UInt32.reduceToNat]
  omega

/-- The class holds two characters more than its list: the comma, which lies in a range, and the
separator. -/
theorem inSymlinks_eq (c : Char) : inSymlinks c = (listed c || c == ',' || c == '/') := by
  simp only [inSymlinks, listed, plus_to_period]
  ac_rfl
structure Symlinkable (name : String) : Prop where
  ascii : ∀ c ∈ name.toList, c.toNat < 0x80 → listed c = true
  printable : ∀ c ∈ name.toList, isControl c = false
  nonempty : name ≠ ""
  notPeriods : name ≠ "." ∧ name ≠ ".."
  short : name.utf8ByteSize ≤ 255

theorem toList_ne_iff {name : String} {cs : List Char} :
    name.toList ≠ cs ↔ name ≠ String.ofList cs := by
  rw [Ne, Ne, ← String.toList_inj, String.toList_ofList]

theorem ne_empty_of_components {name : String} (h : (components name.toList).length = 1) :
    name ≠ "" := by
  rintro rfl
  revert h
  decide

theorem listed_of_inSymlinks {c : Char} (h : notInSymlinks c = false) (hascii : c.toNat < 0x80)
    (hcomma : c ≠ ',') (hslash : c ≠ '/') : listed c = true := by
  have hclass : inSymlinks c = true := by simpa [notInSymlinks, hascii] using h
  simpa [inSymlinks_eq, hcomma, hslash] using hclass

theorem isWhiteSpace_of_listed {c : Char} (h : listed c = true) (hctrl : isControl c = false)
    (hascii : c.toNat < 0x80) : isWhiteSpace c = false := by
  have hspace : c.toNat ≠ 0x20 := by
    intro hc
    have : c = ' ' := Char.toNat_inj.1 hc
    subst this
    exact absurd h (by decide)
  simp only [isControl, Bool.or_eq_false_iff, Bool.and_eq_false_iff,
    decide_eq_false_iff_not] at hctrl
  simp only [isWhiteSpace, Bool.or_eq_false_iff, Bool.and_eq_false_iff, decide_eq_false_iff_not,
    beq_eq_false_iff_ne]
  omega

theorem trim_eq_self {cs : List Char} (h : ∀ c ∈ cs, isWhiteSpace c = false) : trim cs = cs := by
  have hkeep : ∀ ds : List Char, (∀ c ∈ ds, isWhiteSpace c = false) →
      ds.dropWhile isWhiteSpace = ds := by
    intro ds hds
    cases ds with
    | nil => rfl
    | cons d ds => rw [dropWhile_cons_of_neg (by simp [hds d mem_cons_self])]
  unfold trim
  rw [hkeep cs h, hkeep _ fun c hc => h c (mem_reverse.1 hc), reverse_reverse]

theorem validateName_of_symlinkable {name : String} (h : Symlinkable name)
    (hspace : ∀ c ∈ name.toList, 0x80 ≤ c.toNat → isWhiteSpace c = false) :
    validateName name = .ok () := by
  have hnull : '\x00' ∉ name.toList := fun hmem => absurd (h.printable _ hmem) (by decide)
  have hslash : '/' ∉ name.toList := fun hmem => absurd (h.ascii _ hmem (by decide)) (by decide)
  have hblank : ∀ c ∈ name.toList, isWhiteSpace c = false := by
    intro c hc
    rcases lt_or_ge c.toNat 0x80 with hascii | hascii
    · exact isWhiteSpace_of_listed (h.ascii c hc hascii) (h.printable c hc) hascii
    · exact hspace c hc hascii
  have hclass : ∀ c ∈ name.toList, notInSymlinks c = false := by
    intro c hc
    by_cases hascii : c.toNat < 0x80
    · simp [notInSymlinks, inSymlinks_eq, h.ascii c hc hascii]
    · simp [notInSymlinks, hascii]
  obtain ⟨component, -, -, hone⟩ := components_of_notMem hslash
    (toList_ne_iff.2 h.nonempty) (toList_ne_iff.2 h.notPeriods.1)
  have hrelative : isAbsolute name.toList = false := by
    by_contra habs
    have hhead : name.toList.head? = some '/' := by simpa [isAbsolute] using habs
    exact hslash (mem_of_mem_head? hhead)
  rw [validateName_eq_ok]
  refine ⟨hnull, h.notPeriods, h.short, ?_, h.printable, hclass, by rw [hone]; rfl, hrelative⟩
  rw [trim_eq_self hblank, String.ofList_toList]

/-- An accepted name is fit for a symlink exactly when it has neither a comma nor a separator; and
what is fit, with no space among its other characters, is accepted. -/
theorem validateName_symlinkable_iff (name : String) :
    (validateName name = .ok () → (Symlinkable name ↔ ',' ∉ name.toList ∧ '/' ∉ name.toList)) ∧
      (Symlinkable name → (∀ c ∈ name.toList, 0x80 ≤ c.toNat → isWhiteSpace c = false) →
        validateName name = .ok ()) := by
  refine ⟨fun hname => ⟨fun h => ⟨fun hmem => ?_, fun hmem => ?_⟩, fun h => ?_⟩,
    validateName_of_symlinkable⟩
  · exact absurd (h.ascii _ hmem (by decide)) (by decide)
  · exact absurd (h.ascii _ hmem (by decide)) (by decide)
  · obtain ⟨-, hperiods, hshort, -, hctrl, hclass, hone, -⟩ := validateName_eq_ok.1 hname
    refine ⟨fun c hc hascii => ?_, hctrl, ne_empty_of_components hone, hperiods, hshort⟩
    have hcomma : c ≠ ',' := fun heq => h.1 (heq ▸ hc)
    have hslash : c ≠ '/' := fun heq => h.2 (heq ▸ hc)
    exact listed_of_inSymlinks (hclass c hc) hascii hcomma hslash

theorem validateName_symlinkable_pool1 :
    validateName "pool1" = .ok () ∧ Symlinkable "pool1" := by
  have hname : validateName "pool1" = .ok () := by decide +kernel
  exact ⟨hname, ((validateName_symlinkable_iff "pool1").1 hname).2 (by decide +kernel)⟩

/-- A comma and a separator at the end both pass. -/
theorem validateName_comma_accepted :
    (validateName "a,b" = .ok () ∧ ¬Symlinkable "a,b") ∧
      (validateName "a/" = .ok () ∧ ¬Symlinkable "a/") := by
  refine ⟨⟨by decide +kernel, fun h => ?_⟩, ⟨by decide +kernel, fun h => ?_⟩⟩
  · exact absurd (h.ascii ',' (by decide +kernel) (by decide)) (by decide)
  · exact absurd (h.ascii '/' (by decide +kernel) (by decide)) (by decide)

end Stratisd.Engine
