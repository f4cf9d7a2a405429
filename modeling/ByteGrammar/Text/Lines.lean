/-
  Characters cut into lines.

  Main declarations:
    * `Text.lines`
    * `Text.lines_ne_nil`
    * `Text.intercalate_lines`
-/

------------------------------------------------------------
-- Lines
------------------------------------------------------------

namespace ByteGrammar

namespace Text

/- The lines of a text: the stretches between its line
  feeds, of which there is one more than line feeds. -/
def lines :
    List Char → List (List Char)
  | [] => [[]]
  | char :: rest =>
      if char = '\n' then [] :: lines rest
      else
        match lines rest with
        | [] => [[char]]
        | line :: more => (char :: line) :: more

/- There is always a line. -/
theorem lines_ne_nil
    (text : List Char) :
    lines text ≠ [] := by
  cases text with
  | nil => simp [lines]
  | cons char rest =>
      simp only [lines]
      split
      · simp
      · split <;> simp

/- A text is its lines with line feeds between. -/
theorem intercalate_lines
    (text : List Char) :
    ['\n'].intercalate (lines text) = text := by
  induction text with
  | nil => rfl
  | cons char rest ih =>
      simp only [lines]
      split
      · rename_i hBreak
        subst hBreak
        cases hRest : lines rest with
        | nil => exact absurd hRest (lines_ne_nil rest)
        | cons line more =>
            rw [hRest] at ih
            simp only [List.intercalate,
              List.intersperse] at ih ⊢
            simp [ih]
      · cases hRest : lines rest with
        | nil => exact absurd hRest (lines_ne_nil rest)
        | cons line more =>
            rw [hRest] at ih
            cases more with
            | nil =>
                simp only [List.intercalate,
                  List.intersperse] at ih ⊢
                simpa using ih
            | cons next later =>
                simp only [List.intercalate,
                  List.intersperse] at ih ⊢
                simpa using ih

end Text

end ByteGrammar
