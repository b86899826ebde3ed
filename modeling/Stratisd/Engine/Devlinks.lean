import Stratisd.Engine.Names

/-! The path under which a filesystem is available for mounting. Paths are compared by their
components, as `std::path` compares them. -/

namespace Stratisd.Engine

open Run List

/-- `DEV_PATH`. -/
def devPath : String := "/dev/stratis"

/-- `PathBuf::push`. An absolute path replaces the buffer; a separator is put in if the buffer does
not end in one. -/
def push (buf path : List Char) : List Char :=
  if isAbsolute path then path
  else if buf.getLast?.any (· != '/') then buf ++ '/' :: path
  else buf ++ path

def filesystemMountPath (poolName fsName : String) : List Char :=
  [devPath, poolName, fsName].foldl (fun buf part => push buf part.toList) []

/-- `Path::eq`. -/
def SamePath (p q : List Char) : Prop := components p = components q

instance (p q : List Char) : Decidable (SamePath p q) := inferInstanceAs (Decidable (_ = _))

theorem components_of_absolute {path : List Char} (h : isAbsolute path = true) :
    components path = .rootDir :: segments path := by
  simp [components, segments, h]

theorem segments_push {buf path : List Char} (hpath : isAbsolute path = false)
    (hbuf : buf ≠ []) : segments (push buf path) = segments buf ++ segments path := by
  obtain ⟨front, last, rfl⟩ := eq_nil_or_concat buf |>.resolve_left hbuf
  unfold push
  rw [if_neg (by simp [hpath])]
  by_cases hlast : last = '/'
  · -- the separator is there: the text after it is empty
    subst hlast
    rw [if_neg (by simp)]
    have hfront : segments (front ++ ['/']) = segments front := by
      rw [segments_append_cons, segments_nil, append_nil]
    rw [concat_eq_append, hfront, append_assoc, singleton_append,
      segments_append_cons]
  · rw [if_pos (by simpa using hlast), segments_append_cons]

theorem isAbsolute_push {buf path : List Char} (hbuf : isAbsolute buf = true) :
    isAbsolute (push buf path) = true := by
  obtain ⟨rest, rfl⟩ : ∃ rest, buf = '/' :: rest := by
    cases buf with
    | nil => simp [isAbsolute] at hbuf
    | cons c cs => exact ⟨cs, by simpa [isAbsolute] using hbuf⟩
  unfold push
  split_ifs with hpath
  · exact hpath
  · rfl
  · rfl

theorem push_devPath : push [] devPath.toList = devPath.toList := by decide +kernel

theorem isAbsolute_devPath : isAbsolute devPath.toList = true := by decide +kernel

theorem ne_nil_of_isAbsolute {path : List Char} (h : isAbsolute path = true) : path ≠ [] := by
  rintro rfl
  simp [isAbsolute] at h

theorem components_filesystemMountPath {poolName fsName : String}
    (hpool : isAbsolute poolName.toList = false) (hfs : isAbsolute fsName.toList = false) :
    components (filesystemMountPath poolName fsName) =
      .rootDir :: segments devPath.toList ++
        (segments poolName.toList ++ segments fsName.toList) := by
  have hdev := isAbsolute_devPath
  have habs : isAbsolute (push devPath.toList poolName.toList) = true := isAbsolute_push hdev
  simp only [filesystemMountPath, foldl_cons, foldl_nil, push_devPath]
  rw [components_of_absolute (isAbsolute_push habs), segments_push hfs (ne_nil_of_isAbsolute habs),
    segments_push hpool (ne_nil_of_isAbsolute hdev), append_assoc, cons_append]

theorem samePath_iff {pool₁ fs₁ pool₂ fs₂ : String}
    (h : ∀ name ∈ [pool₁, fs₁, pool₂, fs₂], validateName name = .ok ()) :
    SamePath (filesystemMountPath pool₁ fs₁) (filesystemMountPath pool₂ fs₂) ↔
      segments pool₁.toList ++ segments fs₁.toList =
        segments pool₂.toList ++ segments fs₂.toList := by
  have hrelative : ∀ name ∈ [pool₁, fs₁, pool₂, fs₂], isAbsolute name.toList = false := by
    intro name hname
    obtain ⟨-, -, -, -, -, -, -, hrel⟩ := validateName_eq_ok.1 (h name hname)
    exact hrel
  unfold SamePath
  rw [components_filesystemMountPath (hrelative _ (by simp)) (hrelative _ (by simp)),
    components_filesystemMountPath (hrelative _ (by simp)) (hrelative _ (by simp)),
    append_cancel_left_eq]

theorem segments_of_accepted {name : String} (h : validateName name = .ok ())
    (hslash : '/' ∉ name.toList) :
    ∃ c, Component.ofSegment name.toList = some c ∧ segments name.toList = [c] := by
  obtain ⟨-, hperiods, -, -, -, -, hone, -⟩ := validateName_eq_ok.1 h
  obtain ⟨c, hc, hseg, -⟩ := components_of_notMem hslash
    (toList_ne_iff.2 (ne_empty_of_components hone)) (toList_ne_iff.2 hperiods.1)
  exact ⟨c, hc, hseg⟩

/-- Accepted names name their links apart, and are each one plain component, exactly when no one of
them has a separator. -/
theorem filesystemMountPath_distinct_iff (pool₁ fs₁ pool₂ fs₂ : String)
    (h : ∀ name ∈ [pool₁, fs₁, pool₂, fs₂], validateName name = .ok ()) :
    ((SamePath (filesystemMountPath pool₁ fs₁) (filesystemMountPath pool₂ fs₂) →
        pool₁ = pool₂ ∧ fs₁ = fs₂) ∧
      ∀ name ∈ [pool₁, fs₁, pool₂, fs₂], '/' ∉ name.toList) ↔
      ∀ name ∈ [pool₁, fs₁, pool₂, fs₂], '/' ∉ name.toList := by
  refine ⟨And.right, fun hslash => ⟨fun hsame => ?_, hslash⟩⟩
  have hone := fun name hname => segments_of_accepted (h name hname) (hslash name hname)
  obtain ⟨p₁, hp₁, hsp₁⟩ := hone pool₁ (by simp)
  obtain ⟨f₁, hf₁, hsf₁⟩ := hone fs₁ (by simp)
  obtain ⟨p₂, hp₂, hsp₂⟩ := hone pool₂ (by simp)
  obtain ⟨f₂, hf₂, hsf₂⟩ := hone fs₂ (by simp)
  rw [samePath_iff h, hsp₁, hsf₁, hsp₂, hsf₂] at hsame
  obtain ⟨rfl, rfl⟩ : p₁ = p₂ ∧ f₁ = f₂ := by simpa using hsame
  exact ⟨String.toList_inj.1 (Component.ofSegment_inj hp₁ hp₂),
    String.toList_inj.1 (Component.ofSegment_inj hf₁ hf₂)⟩

theorem filesystemMountPath_distinct_pool1 :
    (∀ name ∈ ["pool1", "fs1", "pool1", "fs2"], validateName name = .ok ()) ∧
      ¬SamePath (filesystemMountPath "pool1" "fs1") (filesystemMountPath "pool1" "fs2") := by
  have hnames : ∀ name ∈ ["pool1", "fs1", "pool1", "fs2"], validateName name = .ok () := by
    decide +kernel
  refine ⟨hnames, fun hsame => ?_⟩
  have hdistinct := ((filesystemMountPath_distinct_iff "pool1" "fs1" "pool1" "fs2" hnames).2
    (by decide +kernel)).1 hsame
  exact absurd hdistinct.2 (by decide)

/-- A trailing separator makes another name of the same path, and a period with one makes a name
that leaves no component at all. -/
theorem filesystemMountPath_shared :
    (∀ name ∈ ["a", "a/", "b", "./"], validateName name = .ok ()) ∧
      SamePath (filesystemMountPath "a" "b") (filesystemMountPath "a/" "b") ∧
      SamePath (filesystemMountPath "b" "./") (filesystemMountPath "./" "b") ∧
      '/' ∈ "a/".toList := by
  decide +kernel

end Stratisd.Engine
