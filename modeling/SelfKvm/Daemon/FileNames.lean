/-
  The names files are received under.

  A name that passes `sanitize_filename` is the final component of what the peer sent, and
  `Canonical` lists what is true of it.  The list is also all that is asked of a name, blanks
  apart (`sanitizeFilename_of_canonical`), so a name that has passed passes again; and it survives
  a prefix of digits and a dash, so the fallback name of `publish` passes, too.  A canonical name
  joined to a directory is one more component of its path, whichever separators the platform has:
  nothing is received outside the download directory.
-/
import Mathlib.Data.List.TakeWhile
import SelfKvm.Daemon.Publish

namespace SelfKvm

/-! ## What is true of a name that passes -/

/-- `base` is what follows the last separator of `name`, or all of it. -/
structure FinalComponent (name base : List Char) : Prop where
  suffix : ∃ before, name = before ++ base ∧ ∀ c, before.getLast? = some c → isSeparator c = true
  no_separator : ∀ c ∈ base, isSeparator c = false

/-- A bare file name that no platform takes for anything else. -/
structure Canonical (base : List Char) : Prop where
  nonempty : base ≠ []
  no_separator : ∀ c ∈ base, isSeparator c = false
  no_control : ∀ c ∈ base, isControl c = false
  not_dot : base ≠ ['.']
  not_dotdot : base ≠ ['.', '.']
  not_hidden : base.head? ≠ some '.'
  no_final_dot : base.getLast? ≠ some '.'
  no_final_space : base.getLast? ≠ some ' '
  not_device : ∀ d ∈ reserved, (base.takeWhile (· ≠ '.')).map Char.toUpper ≠ d.toList

/-- The code takes the final component. -/
theorem lastComponent_final (name : List Char) : FinalComponent name (lastComponent name) := by
  have hsplit := List.takeWhile_append_dropWhile (p := fun c => !isSeparator c) (l := name.reverse)
  refine ⟨⟨(name.reverse.dropWhile fun c => !isSeparator c).reverse, ?_, ?_⟩, ?_⟩
  · rw [lastComponent, ← List.reverse_append, hsplit, List.reverse_reverse]
  · intro c hc
    rw [List.getLast?_reverse] at hc
    have hhead := List.head?_dropWhile_not (fun c => !isSeparator c) name.reverse
    rw [hc] at hhead
    simpa using hhead
  · intro c hc
    rw [lastComponent, List.mem_reverse] at hc
    simpa using List.mem_takeWhile_imp hc

/-- A name without separators is its own final component. -/
theorem lastComponent_of_no_separator {base : List Char} (h : ∀ c ∈ base, isSeparator c = false) :
    lastComponent base = base := by
  have hall : base.reverse.takeWhile (fun c => !isSeparator c) = base.reverse := by
    apply List.takeWhile_eq_self_iff.mpr
    intro c hc
    rw [h c (List.mem_reverse.mp hc)]
    rfl
  rw [lastComponent, hall, List.reverse_reverse]

/-- **Only canonical names pass.** -/
theorem canonical_of_sanitize {name r : String} (h : sanitizeFilename name = .ok r) :
    r.toList = lastComponent name.toList ∧ Canonical r.toList ∧ r.toList.all isWhitespace = false := by
  have hsafe := sanitizeFilename_safe h
  unfold sanitizeFilename at h
  simp only at h
  split at h
  · cases h
  rename_i hdots
  split at h
  · cases h
  split at h
  · cases h
  rename_i hedges
  split at h
  · cases h
  rename_i hdevice
  injection h with h
  have hr : r.toList = lastComponent name.toList := by rw [← h, String.toList_ofList]
  rw [← hr] at hdots hedges hdevice
  simp only [not_or] at hdots hedges
  refine ⟨hr, ⟨hdots.1, hsafe.no_separator, hsafe.no_control, hdots.2.1, hdots.2.2, hedges.2.1,
    hedges.2.2.1, hedges.2.2.2, ?_⟩, Bool.eq_false_iff.mpr hedges.1⟩
  intro d hd heq
  rw [heq, String.ofList_toList] at hdevice
  exact hdevice hd

/-- **Every canonical name passes**, unless it is blank. -/
theorem sanitizeFilename_of_canonical {name : String}
    (h : Canonical (lastComponent name.toList))
    (hblank : (lastComponent name.toList).all isWhitespace = false) :
    sanitizeFilename name = .ok (String.ofList (lastComponent name.toList)) := by
  have hdots : ¬(lastComponent name.toList = [] ∨ lastComponent name.toList = ['.'] ∨
      lastComponent name.toList = ['.', '.']) := by
    rintro (hnil | hdot | hdotdot)
    · exact h.nonempty hnil
    · exact h.not_dot hdot
    · exact h.not_dotdot hdotdot
  have hchars : ¬((lastComponent name.toList).any fun c =>
      isSeparator c || c = '\x00' || isControl c) = true := by
    intro hany
    obtain ⟨c, hc, hbad⟩ := List.any_eq_true.mp hany
    have hzero : c ≠ '\x00' := by
      rintro rfl
      exact absurd (h.no_control _ hc) (by decide)
    simp [h.no_separator c hc, h.no_control c hc, hzero] at hbad
  have hedges : ¬((lastComponent name.toList).all isWhitespace = true ∨
      (lastComponent name.toList).head? = some '.' ∨
      (lastComponent name.toList).getLast? = some '.' ∨
      (lastComponent name.toList).getLast? = some ' ') := by
    rintro (hall | hhead | hdot | hspace)
    · rw [hblank] at hall
      cases hall
    · exact h.not_hidden hhead
    · exact h.no_final_dot hdot
    · exact h.no_final_space hspace
  have hdevice : String.ofList
      (((lastComponent name.toList).takeWhile (· ≠ '.')).map Char.toUpper) ∉ reserved := by
    intro hmem
    apply h.not_device _ hmem
    rw [String.toList_ofList]
  unfold sanitizeFilename
  simp only [hdots, hchars, hedges, hdevice, if_false, Bool.false_eq_true]

/-! ## The fallback name -/

theorem altName_toList (token : UInt64) (name : String) :
    (altName token name).toList = (toString token).toList ++ ('-' :: name.toList) := by
  unfold altName
  rw [String.toList_append, String.toList_append, List.append_assoc]
  rfl

/-- No device name has a dash. -/
theorem dash_not_reserved : ∀ d ∈ reserved, '-' ∉ d.toList := by decide

/-- **A canonical name keeps being one behind a token and a dash.** -/
theorem Canonical.altName {name : String} (h : Canonical name.toList) (token : UInt64) :
    Canonical (altName token name).toList := by
  have hsafe : SafeName (SelfKvm.altName token name) :=
    SafeName.altName ⟨h.nonempty, h.no_separator, h.no_control, h.not_hidden⟩ token
  have hlast : (SelfKvm.altName token name).toList.getLast? = name.toList.getLast? := by
    obtain ⟨c, hc⟩ := Option.isSome_iff_exists.mp (List.getLast?_isSome.mpr h.nonempty)
    rw [altName_toList, List.getLast?_append, List.getLast?_cons, hc]
    rfl
  have hnodot : ∀ c ∈ (toString token).toList, c ≠ '.' := by
    rintro c hc rfl
    exact absurd (isDigit_toString hc) (by decide)
  refine ⟨hsafe.nonempty, hsafe.no_separator, hsafe.no_control, ?_, ?_, hsafe.not_hidden, ?_, ?_, ?_⟩
  · intro hdot
    apply hsafe.not_hidden
    rw [hdot]
    rfl
  · intro hdot
    apply hsafe.not_hidden
    rw [hdot]
    rfl
  · rw [hlast]
    exact h.no_final_dot
  · rw [hlast]
    exact h.no_final_space
  · -- what comes before the first dot holds the dash
    intro d hd heq
    have hstem : '-' ∈ (SelfKvm.altName token name).toList.takeWhile (· ≠ '.') := by
      rw [altName_toList, List.takeWhile_append_of_pos fun c hc => by simpa using hnodot c hc,
        List.takeWhile_cons_of_pos (by decide)]
      exact List.mem_append_right _ List.mem_cons_self
    have hupper : '-' ∈ d.toList := by
      rw [← heq]
      exact List.mem_map.mpr ⟨'-', hstem, by decide⟩
    exact dash_not_reserved d hd hupper

/-! ## Paths -/

/-- The two ways in which paths are written. -/
inductive PathStyle where
  | unix
  | windows
  deriving DecidableEq, Repr

namespace PathStyle

/-- What separates the components of a path. -/
def isSep : PathStyle → Char → Bool
  | .unix, c => c = '/'
  | .windows, c => c = '/' || c = '\\'

def mainSep : PathStyle → Char
  | .unix => '/'
  | .windows => '\\'

/-- `Path::join`: a name that starts at the root replaces the path. -/
def join (style : PathStyle) (dir name : List Char) : List Char :=
  if name.head?.any style.isSep then
    name
  else
    match dir.getLast? with
    | none => name
    | some c => if style.isSep c then dir ++ name else dir ++ style.mainSep :: name

/-- The components of a path; repeated separators count once. -/
def components (style : PathStyle) (path : List Char) : List (List Char) :=
  (path.splitOnP style.isSep).filter (· ≠ [])

/-- The path leads to an entry of the directory itself, named `name`. -/
structure DirectChild (style : PathStyle) (dir name path : List Char) : Prop where
  components : style.components path = style.components dir ++ [name]
  not_dot : name ≠ ['.']
  not_dotdot : name ≠ ['.', '.']

variable {style : PathStyle}

theorem isSeparator_of_isSep {c : Char} (h : style.isSep c = true) : isSeparator c = true := by
  cases style with
  | unix =>
    have hc : c = '/' := by simpa [isSep] using h
    rw [hc]
    decide
  | windows =>
    have hc : c = '/' ∨ c = '\\' := by simpa [isSep] using h
    rcases hc with rfl | rfl <;> decide

theorem isSep_mainSep : style.isSep style.mainSep = true := by
  cases style <;> decide

/-- A separator cuts the path where it stands. -/
theorem components_append {c : Char} (hc : style.isSep c = true) (dir name : List Char) :
    style.components (dir ++ c :: name) = style.components dir ++ style.components name := by
  unfold components
  rw [List.splitOnP_append_cons dir name hc, List.filter_append]

/-- A name without separators is one component. -/
theorem components_name {name : List Char} (hname : name ≠ [])
    (h : ∀ c ∈ name, style.isSep c = false) : style.components name = [name] := by
  unfold components
  rw [List.splitOnP_eq_singleton h]
  simp [hname]

/-- **A canonical name is an entry of the directory it is joined to.** -/
theorem directChild_join {name : List Char} (h : Canonical name) (style : PathStyle)
    (dir : List Char) : style.DirectChild dir name (style.join dir name) := by
  have hplain : ∀ c ∈ name, style.isSep c = false := by
    intro c hc
    cases hsep : style.isSep c with
    | false => rfl
    | true => exact absurd ((isSeparator_of_isSep hsep).symm.trans (h.no_separator c hc)) (by decide)
  have hname := components_name h.nonempty hplain
  refine ⟨?_, h.not_dot, h.not_dotdot⟩
  have hrel : name.head?.any style.isSep = false := by
    cases name with
    | nil => rfl
    | cons c cs => exact hplain c List.mem_cons_self
  unfold join
  rw [if_neg (by rw [hrel]; exact Bool.false_ne_true)]
  cases hlast : dir.getLast? with
  | none =>
    rw [List.getLast?_eq_none_iff.mp hlast]
    exact hname
  | some c =>
    by_cases hsep : style.isSep c = true
    · -- the separator is there already
      simp only [hsep, if_true]
      obtain ⟨front, rfl⟩ := List.getLast?_eq_some_iff.mp hlast
      have hdir : style.components (front ++ [c]) = style.components front := by
        rw [components_append hsep front []]
        exact List.append_nil _
      rw [List.append_assoc, List.singleton_append, components_append hsep, hdir, hname]
    · simp only [hsep, if_false, Bool.false_eq_true]
      rw [components_append isSep_mainSep, hname]

end PathStyle

/-! ## The names of a transfer -/

/-- A canonical name that is not blank passes unchanged, is no temporary name, and stays in the
    directory. -/
theorem canonical_passes {name : String} (h : Canonical name.toList)
    (hblank : name.toList.all isWhitespace = false) :
    sanitizeFilename name = .ok name ∧ (∀ n, name ≠ tmpName n) ∧
      ∀ (style : PathStyle) (dir : List Char),
        style.DirectChild dir name.toList (style.join dir name.toList) := by
  have hlast := lastComponent_of_no_separator h.no_separator
  refine ⟨?_, ?_, PathStyle.directChild_join h⟩
  · rw [← hlast] at h hblank
    have hpass := sanitizeFilename_of_canonical h hblank
    rw [hlast, String.ofList_toList] at hpass
    exact hpass
  · have hsafe : SafeName name := ⟨h.nonempty, h.no_separator, h.no_control, h.not_hidden⟩
    exact hsafe.ne_tmpName

/-- **Sanitised names are safe and canonical.**  For every string: if it passes, the result is its
    final component and canonical, and for every token the result and the fallback name built from
    it pass unchanged, differ from every temporary name and are entries of whatever directory they
    are joined to; if it does not pass, its final component is not canonical or is blank. -/
theorem sanitized_names (s : String) :
    (∀ r, sanitizeFilename s = .ok r →
      FinalComponent s.toList r.toList ∧ Canonical r.toList ∧
      ∀ token, ∀ name ∈ [r, altName token r],
        sanitizeFilename name = .ok name ∧ (∀ n, name ≠ tmpName n) ∧
        ∀ (style : PathStyle) (dir : List Char),
          style.DirectChild dir name.toList (style.join dir name.toList)) ∧
    ∀ e, sanitizeFilename s = .error e →
      ∃ base, FinalComponent s.toList base ∧ (¬Canonical base ∨ base.all isWhitespace = true) := by
  constructor
  · intro r h
    obtain ⟨hr, hcanonical, hblank⟩ := canonical_of_sanitize h
    refine ⟨?_, hcanonical, ?_⟩
    · rw [hr]
      exact lastComponent_final s.toList
    · intro token name hname
      have hcases : name = r ∨ name = altName token r := by simpa using hname
      rcases hcases with rfl | rfl
      · exact canonical_passes hcanonical hblank
      · apply canonical_passes (hcanonical.altName token)
        -- the dash is not blank
        rw [altName_toList, List.all_append, List.all_cons, show isWhitespace '-' = false by decide,
          Bool.false_and, Bool.and_false]
  · intro e h
    refine ⟨lastComponent s.toList, lastComponent_final s.toList, ?_⟩
    by_contra hgood
    simp only [not_or, not_not, Bool.not_eq_true] at hgood
    rw [sanitizeFilename_of_canonical hgood.1 hgood.2] at h
    cases h

/-- What a path that climbs out is reduced to. -/
theorem sanitized_names_climbing :
    FinalComponent "../../a.bin".toList "a.bin".toList ∧
      sanitizeFilename (altName 3 "a.bin") = .ok "3-a.bin" := by
  have h := (sanitized_names "../../a.bin").1 "a.bin" (by decide)
  exact ⟨h.1, (h.2.2 3 (altName 3 "a.bin") (List.mem_cons_of_mem _ List.mem_cons_self)).1⟩

end SelfKvm
