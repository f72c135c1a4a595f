/-
# ZephyrSamples.Shell.Options -- a shell command with options

The command `hello` of `SHELL/_08` reads its arguments by `getopt` with the option string `ab:c:` and prints a
line for each option. For what `getopt` does not accept it prints what the call returned, which is `?`.

So the absence of that line is the sign of a well-formed command line (`hello_printed_iff`).
-/
import ZephyrSamples.Lib.Getopt

namespace ZephyrSamples.Shell.Options

open ZephyrSamples.Lib.Getopt

/-- The third argument of `getopt`. -/
def optstring : List Char := ['a', 'b', ':', 'c', ':']

def takes : Char → Option Bool := takesValue optstring

/-- A string for `%s`. -/
def percentS : Option (List Char) → String
  | some s => String.ofList s
  | none => "(null)"

/-- The `switch` of the loop. -/
def response (found : Found) : String :=
  if found.opt = 'a' then "Option -a was found"
  else if found.opt = 'b' then "Option -b with value '" ++ percentS found.optarg ++ "'"
  else if found.opt = 'c' then "Option -c with value '" ++ percentS found.optarg ++ "'"
  else "Unknown option: " ++ String.singleton found.opt

/-- What the command prints, with `argv` from the name of the command on; the shell has initialised `getopt`. -/
def helloCmdHandler (argv : List (List Char)) : List String := (options takes argv ⟨1, []⟩).map response

theorem helloCmdHandler_cons (name : List Char) (args : List (List Char)) :
    helloCmdHandler (name :: args) = (parse takes args).map response := by
  unfold helloCmdHandler
  rw [options_eq_parse]
  rfl

theorem eq_of_takes_false {c : Char} (h : takes c = some false) : c = 'a' := by
  unfold takes takesValue optstring at h
  by_cases ha : c = 'a'
  · exact ha
  · by_cases hb : c = 'b'
    · subst hb
      exact absurd h nofun
    · by_cases hc : c = 'c'
      · subst hc
        exact absurd h nofun
      · by_cases hcolon : c = ':'
        · subst hcolon
          exact absurd h nofun
        · simp [Ne.symm ha, Ne.symm hb, Ne.symm hc, Ne.symm hcolon, hcolon] at h

theorem eq_of_takes_true {c : Char} (h : takes c = some true) : c = 'b' ∨ c = 'c' := by
  unfold takes takesValue optstring at h
  by_cases ha : c = 'a'
  · subst ha
    exact absurd h nofun
  · by_cases hb : c = 'b'
    · exact Or.inl hb
    · by_cases hc : c = 'c'
      · exact Or.inr hc
      · by_cases hcolon : c = ':'
        · subst hcolon
          exact absurd h nofun
        · simp [Ne.symm ha, Ne.symm hb, Ne.symm hc, Ne.symm hcolon, hcolon] at h

/-- The line of an error names no letter. -/
theorem response_of_not_valid {found : Found} (h : ¬ found.Valid) : response found = "Unknown option: ?" := by
  rcases found with c | ⟨c, optarg⟩ | c | c
  · exact absurd trivial h
  · exact absurd trivial h
  · rfl
  · rfl

theorem response_ne {w : Word} (hw : w.Valid takes) {found : Found} (h : found ∈ w.found) :
    response found ≠ "Unknown option: ?" := by
  have hflag : ∀ c, takes c = some false → response (.flag c) ≠ "Unknown option: ?" := by
    intro c hc
    rw [eq_of_takes_false hc]
    nofun
  have hvalue : ∀ c optarg, takes c = some true → response (.value c optarg) ≠ "Unknown option: ?" := by
    intro c optarg hc heq
    have htext := congrArg String.toList heq
    rcases eq_of_takes_true hc with rfl | rfl
    · simp [response, Found.opt] at htext
    · simp [response, Found.opt] at htext
  rcases w with ⟨c, cs⟩ | ⟨cs, opt, v, vs⟩ | ⟨cs, opt, optarg⟩
  · obtain ⟨x, hx, rfl⟩ := List.mem_map.mp h
    exact hflag x (hw x hx)
  · rcases List.mem_append.mp h with h | h
    · obtain ⟨x, hx, rfl⟩ := List.mem_map.mp h
      exact hflag x (hw.1 x hx)
    · rw [List.mem_singleton.mp h]
      exact hvalue opt _ hw.2
  · rcases List.mem_append.mp h with h | h
    · obtain ⟨x, hx, rfl⟩ := List.mem_map.mp h
      exact hflag x (hw.1 x hx)
    · rw [List.mem_singleton.mp h]
      exact hvalue opt _ hw.2

/-- **Well-formed command lines.** The command prints no error exactly when its arguments are words, each some
`-a` together with at most one of `-b` and `-c` and its value, joined or apart, up to the end, `--` or the first
operand; it then prints a line for each option, in order. -/
theorem hello_printed_iff (name : List Char) (args : List (List Char)) (lines : List String) :
    (helloCmdHandler (name :: args) = lines ∧ "Unknown option: ?" ∉ lines) ↔
      ∃ (words : List Word) (rest : List (List Char)), (∀ w ∈ words, w.Valid takes) ∧
        args = words.flatMap Word.args ++ rest ∧ Ends rest ∧
        lines = words.flatMap fun w => w.found.map response := by
  rw [helloCmdHandler_cons]
  constructor
  · rintro ⟨rfl, hclean⟩
    have hvalid : ∀ f ∈ parse takes args, f.Valid := by
      intro f hf
      by_contra hnot
      exact hclean (List.mem_map.mpr ⟨f, hf, response_of_not_valid hnot⟩)
    obtain ⟨words, rest, hwords, hargs, hrest, hfound⟩ := (parse_eq_iff rfl).mp ⟨rfl, hvalid⟩
    refine ⟨words, rest, hwords, hargs, hrest, ?_⟩
    rw [hfound, List.map_flatMap]
  · rintro ⟨words, rest, hwords, hargs, hrest, rfl⟩
    obtain ⟨hfound, -⟩ := (parse_eq_iff rfl).mpr ⟨words, rest, hwords, hargs, hrest, rfl⟩
    refine ⟨?_, ?_⟩
    · rw [hfound, List.map_flatMap]
    · intro hmem
      obtain ⟨w, hw, hmem⟩ := List.mem_flatMap.mp hmem
      obtain ⟨f, hf, heq⟩ := List.mem_map.mp hmem
      exact response_ne (hwords w hw) hf heq

end ZephyrSamples.Shell.Options
