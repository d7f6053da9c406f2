import MiddlewareBench.Lib.CText

/-!
# Text in shell scripts

`${name:-default}`, the words of a text, texts made of lines, and the `sed` command that
takes the prefix off the lines of a log.
-/

namespace MiddlewareBench.ShellText

open CText

/-! ## Variables -/

/-- `${value:-default}`. -/
def orDefault (value default : String) : String := if value = "" then default else value

theorem orDefault_ne {value default : String} (some' : default ≠ "") :
    orDefault value default ≠ "" := by
  unfold orDefault
  split
  · exact some'
  · assumption

theorem orDefault_of_ne {value : String} (given : value ≠ "") (default : String) :
    orDefault value default = value :=
  if_neg given

/-- A default is used once. -/
theorem orDefault_orDefault {value first : String} (some' : first ≠ "") (second : String) :
    orDefault (orDefault value first) second = orDefault value first :=
  orDefault_of_ne (orDefault_ne some') second

/-- The words that the shell splits a text into. -/
def words (text : List Char) : List String :=
  ((text.splitOnP fun c => c = ' ' || c = '\t' || c = '\n').filter (· ≠ [])).map String.ofList

/-! ## Lines -/

/-- The text of some lines, each of them ended. -/
def unlines (lines : List (List Char)) : List Char := lines.flatMap fun line => line ++ ['\n']

/-- The lines of such a text, and an empty rest. -/
theorem splitOn_unlines {lines : List (List Char)} (whole : ∀ line ∈ lines, '\n' ∉ line) :
    (unlines lines).splitOn '\n' = lines ++ [[]] := by
  induction lines with
  | nil => rfl
  | cons line lines ih =>
      have text : unlines (line :: lines) = line ++ '\n' :: unlines lines := by simp [unlines]
      rw [text, List.splitOn_append_cons_self_of_not_mem (whole line List.mem_cons_self),
        ih fun line' member => whole line' (List.mem_cons_of_mem line member)]
      rfl

/-! ## Prefixes of a log -/

/-- What `sed 's/.*[[:space:]]| //'` leaves of a line that it matches: what follows the last
bar with a space on both sides. -/
def afterBar : List Char → Option (List Char)
  | [] => none
  | c :: rest =>
    match afterBar rest with
    | some text => some text
    | none => if isSpace c && "| ".toList.isPrefixOf rest then some (rest.drop 2) else none

/-- A line that has no match in its tail. -/
theorem afterBar_cons {c : Char} {rest : List Char} (none' : afterBar rest = none) :
    afterBar (c :: rest) =
      if isSpace c && "| ".toList.isPrefixOf rest then some (rest.drop 2) else none := by
  rw [afterBar, none']

theorem afterBar_of_notMem {text : List Char} (noBar : '|' ∉ text) : afterBar text = none := by
  induction text with
  | nil => rfl
  | cons c rest ih =>
      rw [List.mem_cons, not_or] at noBar
      rw [afterBar_cons (ih noBar.2), if_neg]
      intro bar
      obtain ⟨-, starts⟩ := (Bool.and_eq_true _ _).mp bar
      obtain ⟨more, same⟩ := List.isPrefixOf_iff_prefix.mp starts
      exact noBar.2 (same ▸ List.mem_cons_self)

theorem afterBar_append {text line : List Char} (found : afterBar line = some text)
    (before : List Char) : afterBar (before ++ line) = some text := by
  induction before with
  | nil => exact found
  | cons c before ih => rw [List.cons_append, afterBar, ih]

/-- What is left is the end of the line. -/
theorem suffix_of_afterBar {text line : List Char} (found : afterBar line = some text) :
    text <:+ line := by
  induction line with
  | nil => cases found
  | cons c rest ih =>
      unfold afterBar at found
      split at found
      · rename_i earlier inRest
        cases found
        exact (ih inRest).trans (List.suffix_cons c rest)
      · rw [Option.ite_none_right_eq_some, Option.some.injEq] at found
        rw [← found.2]
        exact (List.drop_suffix 2 rest).trans (List.suffix_cons c rest)

/-- A line after the name of where it comes from. -/
def tagged (name line : List Char) : List Char := name ++ " | ".toList ++ line

/-- The name goes, whatever it is. -/
theorem afterBar_tagged {text : List Char} (noBar : '|' ∉ text) (name : List Char) :
    afterBar (tagged name text) = some text := by
  have afterSpace : '|' ∉ ' ' :: text := by
    rw [List.mem_cons, not_or]
    exact ⟨by decide, noBar⟩
  have none' : afterBar ('|' :: ' ' :: text) = none := by
    rw [afterBar_cons (afterBar_of_notMem afterSpace)]
    rfl
  unfold tagged
  rw [List.append_assoc]
  apply afterBar_append
  show afterBar (' ' :: '|' :: ' ' :: text) = some text
  rw [afterBar_cons none']
  rfl

end MiddlewareBench.ShellText
