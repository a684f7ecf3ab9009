/-! # Blank characters, trimming and words -/
namespace GridQuery.Text

/-- The code points of the white space of all scripts: the bidirectional types WS, B and S, and the
category Space Separator. -/
def blankCodes : List Nat := [
  0x09, 0x0A, 0x0B, 0x0C, 0x0D, 0x1C, 0x1D, 0x1E, 0x1F, 0x20, 0x85, 0xA0, 0x1680, 0x2000, 0x2001,
  0x2002, 0x2003, 0x2004, 0x2005, 0x2006, 0x2007, 0x2008, 0x2009, 0x200A, 0x2028, 0x2029, 0x202F,
  0x205F, 0x3000]

def isBlank (c : Char) : Bool := blankCodes.contains c.toNat

/-- The list without the leading and trailing items that satisfy `p`. -/
def trimBy (p : Char → Bool) (s : List Char) : List Char :=
  ((s.dropWhile p).reverse.dropWhile p).reverse

/-- The text without the blanks around it. -/
def trim (s : List Char) : List Char := trimBy isBlank s

/-- Whether a text holds nothing but blanks. -/
def isBlankText (s : List Char) : Bool := s.all isBlank

/-- The pieces between separators; a text without separator is one piece. -/
def splitAt (sep : Char) : List Char → List (List Char)
  | [] => [[]]
  | c :: r =>
    if c = sep then [] :: splitAt sep r
    else match splitAt sep r with
      | [] => [[c]]
      | piece :: pieces => (c :: piece) :: pieces

theorem splitAt_ne_nil (sep : Char) (s : List Char) : splitAt sep s ≠ [] := by
  cases s with
  | nil => simp [splitAt]
  | cons c r =>
    rw [splitAt]
    split
    · simp
    · split <;> simp

theorem splitAt_of_not_mem {sep : Char} {s : List Char} (h : sep ∉ s) : splitAt sep s = [s] := by
  induction s with
  | nil => rfl
  | cons c r ih =>
    have hc : c ≠ sep := fun hc => h (by simp [hc])
    have hr : sep ∉ r := fun hr => h (List.mem_cons_of_mem _ hr)
    simp [splitAt, hc, ih hr]

theorem splitAt_append {sep : Char} {s t : List Char} (h : sep ∉ s) :
    splitAt sep (s ++ sep :: t) = s :: splitAt sep t := by
  induction s with
  | nil => simp [splitAt]
  | cons c r ih =>
    have hc : c ≠ sep := fun hc => h (by simp [hc])
    have hr : sep ∉ r := fun hr => h (List.mem_cons_of_mem _ hr)
    simp [splitAt, hc, ih hr]

/-- The maximal runs of characters that are not blank. -/
def words (s : List Char) : List (List Char) :=
  match s with
  | [] => []
  | c :: r =>
    if isBlank c then words r
    else
      (c :: r.takeWhile (!isBlank ·)) :: words (r.dropWhile (!isBlank ·))
termination_by s.length
decreasing_by
  · simp
  · simp only [List.length_cons]
    have := (List.dropWhile_sublist (l := r) (!isBlank ·)).length_le
    omega

theorem words_ne_nil {s : List Char} (h : isBlankText s = false) : words s ≠ [] := by
  fun_induction words s with
  | case1 => simp [isBlankText] at h
  | case2 c r hc ih => exact ih (by simpa [isBlankText, hc] using h)
  | case3 => simp

theorem words_eq_nil_iff {s : List Char} : words s = [] ↔ isBlankText s := by
  constructor
  · intro h
    cases hb : isBlankText s with
    | true => rfl
    | false => exact absurd h (words_ne_nil hb)
  · intro h
    induction s with
    | nil => simp [words]
    | cons c r ih =>
      obtain ⟨hc, hr⟩ : isBlank c = true ∧ isBlankText r = true := by
        simpa [isBlankText] using h
      rw [words, if_pos hc]
      exact ih hr

end GridQuery.Text
