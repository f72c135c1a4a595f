/-
# ZephyrSamples.Lib.Getopt -- options read from an argument vector

`getopt` reads an argument vector by one option a call and keeps between its calls the index of the argument it
is in and its place there. `parse` reads the same vector argument by argument, without an index.

The calls of `getopt` come to an end and give what `parse` gives (`options_eq_parse`). What is read without an
error is exactly what is written as a list of words, each a cluster of flags with at most one option behind them
whose value is joined to it or is the next argument, up to the end, a `--` or the first operand
(`parse_eq_iff`).

Nothing here names a program.
-/
import Mathlib.Data.List.Basic

namespace ZephyrSamples.Lib.Getopt

/-- What is found by a call. -/
inductive Found where
  | flag (opt : Char)
  | value (opt : Char) (optarg : List Char)
  | unknown (optopt : Char)
  | missing (optopt : Char)
  deriving DecidableEq, Repr

namespace Found

/-- What the call returns. -/
def opt : Found → Char
  | flag opt | value opt _ => opt
  | unknown _ | missing _ => '?'

def optarg : Found → Option (List Char)
  | value _ optarg => some optarg
  | _ => none

def Valid : Found → Prop
  | flag _ | value _ _ => True
  | unknown _ | missing _ => False

end Found

/-- Whether a letter is one of the options, and whether it has a value: its place in the string is followed by a
colon. -/
def takesValue (optstring : List Char) (c : Char) : Option Bool :=
  if c = ':' then none
  else
    match optstring.dropWhile (· ≠ c) with
    | [] => none
    | _ :: rest => some (rest.head? = some ':')

/-- Between two calls: the index of the argument and what is left of it, if the scan is inside it. -/
structure State where
  optind : Nat
  place : List Char
  deriving DecidableEq, Repr

section Calls

variable (takes : Char → Option Bool) (argv : List (List Char))

/-- Inside an argument, with the next letter and the letters behind it. -/
def getoptAt (optind : Nat) (c : Char) (place : List Char) : Found × State :=
  match takes c with
  | none => (.unknown c, ⟨if place = [] then optind + 1 else optind, place⟩)
  | some false => (.flag c, ⟨if place = [] then optind + 1 else optind, place⟩)
  | some true =>
      if place ≠ [] then (.value c place, ⟨optind + 1, []⟩)
      else
        match argv[optind + 1]? with
        | some optarg => (.value c optarg, ⟨optind + 2, []⟩)
        | none => (.missing c, ⟨optind + 1, []⟩)

/-- A call, with `none` for -1. -/
def getopt (s : State) : Option (Found × State) :=
  match s.place with
  | c :: place => some (getoptAt takes argv s.optind c place)
  | [] =>
      match argv[s.optind]? with
      | some ('-' :: c :: place) => if c = '-' ∧ place = [] then none else some (getoptAt takes argv s.optind c place)
      | _ => none

variable {takes argv} in
theorem getopt_of_option {optind : Nat} {c : Char} {place : List Char} (h : argv[optind]? = some ('-' :: c :: place)) :
    getopt takes argv ⟨optind, []⟩ =
      if c = '-' ∧ place = [] then none else some (getoptAt takes argv optind c place) := by
  unfold getopt
  simp only [h]

variable {takes argv} in
/-- The scan ends at the end and at an operand, which a single `-` is too. -/
theorem getopt_of_operand {optind : Nat} (h : ∀ c place, argv[optind]? ≠ some ('-' :: c :: place)) :
    getopt takes argv ⟨optind, []⟩ = none := by
  unfold getopt
  split
  · next hplace => cases hplace
  · split
    · next c place harg => exact absurd harg (h c place)
    · rfl

/-- The letters of some arguments, and the arguments. -/
def size (args : List (List Char)) : Nat := args.flatten.length + args.length

/-- The letters and arguments that are left. -/
def remaining (s : State) : Nat :=
  s.place.length + size (argv.drop (if s.place = [] then s.optind else s.optind + 1))

variable {takes argv}

theorem size_cons (arg : List Char) (args : List (List Char)) : size (arg :: args) = arg.length + 1 + size args := by
  unfold size
  rw [List.flatten_cons, List.length_append, List.length_cons]
  omega

/-- Between two arguments, and inside one. -/
theorem remaining_nil (optind : Nat) : remaining argv ⟨optind, []⟩ = size (argv.drop optind) := Nat.zero_add _

theorem remaining_cons (optind : Nat) (c : Char) (place : List Char) :
    remaining argv ⟨optind, c :: place⟩ = place.length + 1 + remaining argv ⟨optind + 1, []⟩ := by
  rw [remaining_nil]
  rfl

/-- What is left behind a letter, whether or not it was the last of its argument. -/
theorem remaining_place (optind : Nat) (place : List Char) :
    remaining argv ⟨if place = [] then optind + 1 else optind, place⟩ =
      place.length + remaining argv ⟨optind + 1, []⟩ := by
  rcases place with _ | ⟨c, place⟩
  · rw [if_pos rfl, List.length_nil, Nat.zero_add]
  · rw [if_neg (List.cons_ne_nil c place), remaining_cons, List.length_cons]

theorem drop_of_getElem? {optind : Nat} {arg : List Char} (h : argv[optind]? = some arg) :
    argv.drop optind = arg :: argv.drop (optind + 1) := by
  obtain ⟨hlt, rfl⟩ := List.getElem?_eq_some_iff.mp h
  exact List.drop_eq_getElem_cons hlt

/-- A letter is used up, and what is joined to it. -/
theorem remaining_getoptAt (optind : Nat) (c : Char) (place : List Char) :
    remaining argv (getoptAt takes argv optind c place).2 ≤ place.length + remaining argv ⟨optind + 1, []⟩ := by
  unfold getoptAt
  rcases takes c with _ | _ | _
  · exact Nat.le_of_eq (remaining_place optind place)
  · exact Nat.le_of_eq (remaining_place optind place)
  · by_cases hplace : place = []
    · -- the value is the next argument, or missing
      simp only [hplace, ne_eq, not_true_eq_false, if_false]
      rcases hnext : argv[optind + 1]? with _ | optarg
      · exact Nat.le_add_left _ _
      · show remaining argv ⟨optind + 2, []⟩ ≤ 0 + remaining argv ⟨optind + 1, []⟩
        rw [remaining_nil, remaining_nil, drop_of_getElem? hnext, size_cons]
        exact Nat.le_trans (Nat.le_add_left _ _) (Nat.le_add_left _ _)
    · simp only [ne_eq, hplace, not_false_eq_true, if_true]
      exact Nat.le_add_left _ _

/-- Every call that returns an option has used up a letter. -/
theorem remaining_getopt {s t : State} {found : Found} (h : getopt takes argv s = some (found, t)) :
    remaining argv t < remaining argv s := by
  have hnext (optind : Nat) (c : Char) (place : List Char)
      (hat : some (getoptAt takes argv optind c place) = some (found, t)) :
      remaining argv t ≤ place.length + remaining argv ⟨optind + 1, []⟩ := by
    have hle := @remaining_getoptAt takes argv optind c place
    rw [Option.some.inj hat] at hle
    exact hle
  rcases s with ⟨optind, _ | ⟨c, place⟩⟩
  · by_cases hoption : ∃ c place, argv[optind]? = some ('-' :: c :: place)
    · obtain ⟨c, place, harg⟩ := hoption
      rw [getopt_of_option harg] at h
      by_cases hend : c = '-' ∧ place = []
      · rw [if_pos hend] at h
        cases h
      · rw [if_neg hend] at h
        have hle := hnext optind c place h
        rw [remaining_nil optind, drop_of_getElem? harg, size_cons, ← remaining_nil]
        show remaining argv t < place.length + 2 + 1 + remaining argv ⟨optind + 1, []⟩
        omega
    · rw [getopt_of_operand fun c place harg => hoption ⟨c, place, harg⟩] at h
      cases h
  · have hle := hnext optind c place h
    rw [remaining_cons]
    omega

variable (takes argv)

/-- What is found until a call returns -1. -/
def options (s : State) : List Found :=
  match _h : getopt takes argv s with
  | none => []
  | some (found, t) => found :: options t
termination_by remaining argv s
decreasing_by exact remaining_getopt _h

end Calls

/-! ## Argument by argument -/

section Parse

variable (takes : Char → Option Bool)

/-- What the letters of an argument are, and the option at its end whose value is not joined to it. -/
def cluster : List Char → List Found × Option Char
  | [] => ([], none)
  | c :: place =>
      match takes c with
      | none => (.unknown c :: (cluster place).1, (cluster place).2)
      | some false => (.flag c :: (cluster place).1, (cluster place).2)
      | some true => if place ≠ [] then ([.value c place], none) else ([], some c)

def parse : List (List Char) → List Found
  | ('-' :: c :: place) :: rest =>
      if c = '-' ∧ place = [] then []
      else
        (cluster takes (c :: place)).1 ++
          match (cluster takes (c :: place)).2, rest with
          | none, rest => parse rest
          | some opt, [] => [.missing opt]
          | some opt, optarg :: rest => .value opt optarg :: parse rest
  | _ => []

/-- What is found from inside an argument, with the arguments behind it. -/
def parseFrom (place : List Char) (rest : List (List Char)) : List Found :=
  (cluster takes place).1 ++
    match (cluster takes place).2, rest with
    | none, rest => parse takes rest
    | some opt, [] => [.missing opt]
    | some opt, optarg :: rest => .value opt optarg :: parse takes rest

variable {takes}

theorem parse_cons (c : Char) (place : List Char) (rest : List (List Char)) :
    parse takes (('-' :: c :: place) :: rest) =
      if c = '-' ∧ place = [] then [] else parseFrom takes (c :: place) rest := by
  rw [parse.eq_def]
  rfl

/-- The parse ends at an operand too. -/
theorem parse_of_operand {arg : List Char} (h : ∀ c place, arg ≠ '-' :: c :: place) (rest : List (List Char)) :
    parse takes (arg :: rest) = [] := by
  rw [parse.eq_def]
  split
  · next heq => exact absurd (List.cons.inj heq).1 (h _ _)
  · rfl

/-- Behind the last letter of an argument the next one is read. -/
theorem parseFrom_nil (rest : List (List Char)) : parseFrom takes [] rest = parse takes rest := rfl

theorem parseFrom_unknown {c : Char} (h : takes c = none) (place : List Char) (rest : List (List Char)) :
    parseFrom takes (c :: place) rest = .unknown c :: parseFrom takes place rest := by
  unfold parseFrom
  rw [cluster, h]
  rfl

theorem parseFrom_flag {c : Char} (h : takes c = some false) (place : List Char) (rest : List (List Char)) :
    parseFrom takes (c :: place) rest = .flag c :: parseFrom takes place rest := by
  unfold parseFrom
  rw [cluster, h]
  rfl

/-- What is joined to an option is its value, whatever letters it has. -/
theorem parseFrom_value {c : Char} (h : takes c = some true) {place : List Char} (hplace : place ≠ [])
    (rest : List (List Char)) : parseFrom takes (c :: place) rest = .value c place :: parse takes rest := by
  unfold parseFrom
  rw [cluster, h]
  simp only [ne_eq, hplace, not_false_eq_true, if_true]
  rfl

/-- At the end of an argument the value is the next argument, if there is one. -/
theorem parseFrom_last {c : Char} (h : takes c = some true) (rest : List (List Char)) :
    parseFrom takes [c] rest =
      match rest with
      | [] => [.missing c]
      | optarg :: rest => .value c optarg :: parse takes rest := by
  unfold parseFrom
  rw [cluster, h]
  rcases rest with _ | ⟨optarg, rest⟩ <;> rfl

/-! ## The calls and the parse -/

variable {argv : List (List Char)}

variable (takes argv) in
/-- What is yet to be found. -/
def ahead (s : State) : List Found :=
  if s.place = [] then parse takes (argv.drop s.optind)
  else parseFrom takes s.place (argv.drop (s.optind + 1))

/-- Behind a letter, whether or not it was the last of its argument. -/
theorem ahead_place (optind : Nat) (place : List Char) :
    ahead takes argv ⟨if place = [] then optind + 1 else optind, place⟩ =
      parseFrom takes place (argv.drop (optind + 1)) := by
  unfold ahead
  by_cases hplace : place = []
  · simp only [hplace, if_true]
    rfl
  · simp only [hplace, if_false]

/-- A letter, and what is ahead behind it. -/
theorem parseFrom_getoptAt (optind : Nat) (c : Char) (place : List Char) :
    parseFrom takes (c :: place) (argv.drop (optind + 1)) =
      (getoptAt takes argv optind c place).1 :: ahead takes argv (getoptAt takes argv optind c place).2 := by
  unfold getoptAt
  rcases hc : takes c with _ | _ | _
  · rw [parseFrom_unknown hc, ← ahead_place]
  · rw [parseFrom_flag hc, ← ahead_place]
  · by_cases hplace : place = []
    · rw [hplace, parseFrom_last hc]
      simp only [ne_eq, not_true_eq_false, if_false]
      rcases hnext : argv[optind + 1]? with _ | optarg
      · have hdrop : argv.drop (optind + 1) = [] := by
          rw [List.drop_eq_nil_iff]
          exact List.getElem?_eq_none_iff.mp hnext
        rw [hdrop]
        show _ = Found.missing c :: parse takes (argv.drop (optind + 1))
        rw [hdrop]
        rfl
      · rw [drop_of_getElem? hnext]
        rfl
    · rw [parseFrom_value hc hplace]
      simp only [ne_eq, hplace, not_false_eq_true, if_true]
      rfl

/-- **One call.** What it finds is the first of what is yet to be found. -/
theorem ahead_getopt (s : State) :
    ahead takes argv s =
      match getopt takes argv s with
      | none => []
      | some (found, t) => found :: ahead takes argv t := by
  rcases s with ⟨optind, _ | ⟨c, place⟩⟩
  · show parse takes (argv.drop optind) = _
    by_cases h : ∃ c place, argv[optind]? = some ('-' :: c :: place)
    · obtain ⟨c, place, harg⟩ := h
      rw [drop_of_getElem? harg, parse_cons, getopt_of_option harg]
      by_cases hend : c = '-' ∧ place = []
      · rw [if_pos hend, if_pos hend]
      · rw [if_neg hend, if_neg hend]
        exact parseFrom_getoptAt optind c place
    · -- the end, or an operand
      have hne : ∀ c place, argv[optind]? ≠ some ('-' :: c :: place) := fun c place harg => h ⟨c, place, harg⟩
      rw [getopt_of_operand hne]
      rcases harg : argv[optind]? with _ | arg
      · rw [List.drop_eq_nil_iff.mpr (List.getElem?_eq_none_iff.mp harg)]
        rfl
      · rw [drop_of_getElem? harg]
        apply parse_of_operand
        rintro c place rfl
        exact hne c place harg
  · exact parseFrom_getoptAt optind c place

/-- **The calls give the parse.** -/
theorem options_eq_parse (argv : List (List Char)) (optind : Nat) :
    options takes argv ⟨optind, []⟩ = parse takes (argv.drop optind) := by
  have hahead : ∀ s, options takes argv s = ahead takes argv s := by
    intro s
    fun_induction options takes argv s with
    | case1 s hnone => rw [ahead_getopt, hnone]
    | case2 s found t hsome ih => rw [ahead_getopt, hsome, ih]
  exact hahead ⟨optind, []⟩

/-! ## What is read without an error -/

/-- An argument that is not empty, or two: flags, and an option whose value is joined to it or apart. -/
inductive Word where
  | flags (c : Char) (cs : List Char)
  | joined (cs : List Char) (opt : Char) (v : Char) (vs : List Char)
  | apart (cs : List Char) (opt : Char) (optarg : List Char)
  deriving DecidableEq, Repr

namespace Word

variable (takes) in
def Valid : Word → Prop
  | flags c cs => ∀ x ∈ c :: cs, takes x = some false
  | joined cs opt _ _ | apart cs opt _ => (∀ x ∈ cs, takes x = some false) ∧ takes opt = some true

/-- As it is written. -/
def args : Word → List (List Char)
  | flags c cs => ['-' :: c :: cs]
  | joined cs opt v vs => ['-' :: (cs ++ opt :: v :: vs)]
  | apart cs opt optarg => ['-' :: (cs ++ [opt]), optarg]

/-- What it says. -/
def found : Word → List Found
  | flags c cs => (c :: cs).map .flag
  | joined cs opt v vs => cs.map .flag ++ [.value opt (v :: vs)]
  | apart cs opt optarg => cs.map .flag ++ [.value opt optarg]

theorem valid_of_mem_found {w : Word} {f : Found} (h : f ∈ w.found) : f.Valid := by
  rcases w with ⟨c, cs⟩ | ⟨cs, opt, v, vs⟩ | ⟨cs, opt, optarg⟩
  · obtain ⟨x, -, rfl⟩ := List.mem_map.mp h
    exact trivial
  · rcases List.mem_append.mp h with h | h
    · obtain ⟨x, -, rfl⟩ := List.mem_map.mp h
      exact trivial
    · rw [List.mem_singleton.mp h]
      exact trivial
  · rcases List.mem_append.mp h with h | h
    · obtain ⟨x, -, rfl⟩ := List.mem_map.mp h
      exact trivial
    · rw [List.mem_singleton.mp h]
      exact trivial

end Word

/-- Where the options end. -/
def Ends : List (List Char) → Prop
  | [] => True
  | arg :: _ => arg = ['-', '-'] ∨ ∀ c place, arg ≠ '-' :: c :: place

/-- Where the options end nothing is read. -/
theorem parse_of_ends {rest : List (List Char)} (h : Ends rest) : parse takes rest = [] := by
  rcases rest with _ | ⟨arg, rest⟩
  · rfl
  · rcases h with rfl | hne
    · rw [parse_cons]
      exact if_pos ⟨rfl, rfl⟩
    · exact parse_of_operand hne rest

/-- Flags are read one by one. -/
theorem parseFrom_flags {cs : List Char} (h : ∀ x ∈ cs, takes x = some false) (place : List Char)
    (rest : List (List Char)) :
    parseFrom takes (cs ++ place) rest = cs.map .flag ++ parseFrom takes place rest := by
  induction cs with
  | nil => rfl
  | cons c cs ih =>
      rw [List.cons_append, parseFrom_flag (h c List.mem_cons_self), ih fun x hx => h x (List.mem_cons_of_mem c hx)]
      rfl

/-- An argument that begins with an option does not end the options. -/
theorem parse_option (hminus : takes '-' = none) {c : Char} (hc : takes c ≠ none) (place : List Char)
    (rest : List (List Char)) :
    parse takes (('-' :: c :: place) :: rest) = parseFrom takes (c :: place) rest := by
  rw [parse_cons]
  apply if_neg
  rintro ⟨rfl, -⟩
  exact hc hminus

/-- **A word is read back.** -/
theorem parse_word (hminus : takes '-' = none) {w : Word} (h : w.Valid takes) (rest : List (List Char)) :
    parse takes (w.args ++ rest) = w.found ++ parse takes rest := by
  rcases w with ⟨c, cs⟩ | ⟨cs, opt, v, vs⟩ | ⟨cs, opt, optarg⟩
  · have hc : takes c = some false := h c List.mem_cons_self
    show parse takes (('-' :: c :: cs) :: rest) = (c :: cs).map .flag ++ parse takes rest
    rw [parse_option hminus (by rw [hc]; nofun), ← parseFrom_nil, ← parseFrom_flags h, List.append_nil]
  · obtain ⟨hcs, hopt⟩ := h
    have hfrom : parseFrom takes (cs ++ opt :: v :: vs) rest =
        cs.map .flag ++ (Found.value opt (v :: vs) :: parse takes rest) := by
      rw [parseFrom_flags hcs, parseFrom_value hopt (List.cons_ne_nil v vs)]
    show parse takes (('-' :: (cs ++ opt :: v :: vs)) :: rest) =
      (cs.map .flag ++ [Found.value opt (v :: vs)]) ++ parse takes rest
    rw [List.append_assoc, List.singleton_append, ← hfrom]
    rcases cs with _ | ⟨c, cs⟩
    · exact parse_option hminus (by rw [hopt]; nofun) _ _
    · exact parse_option hminus (by rw [hcs c List.mem_cons_self]; nofun) _ _
  · obtain ⟨hcs, hopt⟩ := h
    have hfrom : parseFrom takes (cs ++ [opt]) (optarg :: rest) =
        cs.map .flag ++ (Found.value opt optarg :: parse takes rest) := by
      rw [parseFrom_flags hcs, parseFrom_last hopt]
    show parse takes (('-' :: (cs ++ [opt])) :: optarg :: rest) =
      (cs.map .flag ++ [Found.value opt optarg]) ++ parse takes rest
    rw [List.append_assoc, List.singleton_append, ← hfrom]
    rcases cs with _ | ⟨c, cs⟩
    · exact parse_option hminus (by rw [hopt]; nofun) _ _
    · exact parse_option hminus (by rw [hcs c List.mem_cons_self]; nofun) _ _

/-- Letters that are read without an error are a word's, and the arguments behind it are read without one. -/
theorem word_of_parseFrom {c : Char} {place : List Char} {rest : List (List Char)}
    (h : ∀ f ∈ parseFrom takes (c :: place) rest, f.Valid) :
    ∃ w rest', Word.Valid takes w ∧ w.args ++ rest' = ('-' :: c :: place) :: rest ∧
      parseFrom takes (c :: place) rest = w.found ++ parse takes rest' := by
  -- the flags in front of the letters that are left
  suffices hsuff : ∀ (cs : List Char) (place : List Char), cs ++ place ≠ [] →
      (∀ x ∈ cs, takes x = some false) → (∀ f ∈ parseFrom takes place rest, f.Valid) →
      ∃ w rest', Word.Valid takes w ∧ w.args ++ rest' = ('-' :: (cs ++ place)) :: rest ∧
        cs.map .flag ++ parseFrom takes place rest = w.found ++ parse takes rest' by
    exact hsuff [] (c :: place) (List.cons_ne_nil c place) (fun x hx => absurd hx List.not_mem_nil) h
  clear h
  intro cs place
  induction place generalizing cs with
  | nil =>
      intro hne hcs _
      rw [List.append_nil] at hne ⊢
      rcases cs with _ | ⟨x, xs⟩
      · exact absurd rfl hne
      · exact ⟨.flags x xs, rest, hcs, rfl, rfl⟩
  | cons y ys ih =>
      intro hne hcs hvalid
      rcases hy : takes y with _ | _ | _
      · rw [parseFrom_unknown hy] at hvalid
        exact absurd (hvalid _ List.mem_cons_self) id
      · -- one flag more in front
        rw [parseFrom_flag hy] at hvalid ⊢
        have hflags : ∀ x ∈ cs ++ [y], takes x = some false := by
          intro x hx
          rcases List.mem_append.mp hx with hx | hx
          · exact hcs x hx
          · rw [List.mem_singleton.mp hx]
            exact hy
        obtain ⟨w, rest', hw, hargs, hfound⟩ :=
          ih (cs ++ [y]) (by simp) hflags fun f hf => hvalid f (List.mem_cons_of_mem _ hf)
        refine ⟨w, rest', hw, ?_, ?_⟩
        · rw [hargs, List.append_assoc]
          rfl
        · rw [← hfound, List.map_append, List.append_assoc]
          rfl
      · by_cases hys : ys = []
        · subst hys
          rw [parseFrom_last hy] at hvalid ⊢
          rcases rest with _ | ⟨optarg, rest⟩
          · exact absurd (hvalid _ List.mem_cons_self) id
          · exact ⟨.apart cs y optarg, rest, ⟨hcs, hy⟩, rfl, (List.append_assoc _ [_] _).symm⟩
        · rw [parseFrom_value hy hys]
          obtain ⟨v, vs, rfl⟩ := List.exists_cons_of_ne_nil hys
          exact ⟨.joined cs y v vs, rest, ⟨hcs, hy⟩, rfl, (List.append_assoc _ [_] _).symm⟩

/-- **What is read without an error** is a list of words up to where the options end, and what is read is what
they say. -/
theorem parse_eq_iff (hminus : takes '-' = none) {args : List (List Char)} {found : List Found} :
    (parse takes args = found ∧ ∀ f ∈ found, f.Valid) ↔
      ∃ (words : List Word) (rest : List (List Char)), (∀ w ∈ words, w.Valid takes) ∧
        args = words.flatMap Word.args ++ rest ∧ Ends rest ∧ found = words.flatMap Word.found := by
  constructor
  · rintro ⟨rfl, hvalid⟩
    induction hlength : args.length using Nat.strongRecOn generalizing args with
    | _ n ih =>
        subst hlength
        by_cases hends : Ends args
        · exact ⟨[], args, fun w hw => absurd hw List.not_mem_nil, rfl, hends, parse_of_ends hends⟩
        · -- an argument of options: its word may take the next argument with it
          obtain ⟨c, place, rest, rfl, hopt⟩ : ∃ c place rest, args = ('-' :: c :: place) :: rest ∧
              ¬ (c = '-' ∧ place = []) := by
            rcases args with _ | ⟨arg, rest⟩
            · exact absurd trivial hends
            · have hboth := not_or.mp hends
              obtain ⟨c, place, harg⟩ : ∃ c place, arg = '-' :: c :: place := by
                by_contra hnone
                exact hboth.2 fun c place harg => hnone ⟨c, place, harg⟩
              refine ⟨c, place, rest, by rw [harg], ?_⟩
              rintro ⟨rfl, rfl⟩
              exact hboth.1 harg
          rw [parse_cons, if_neg hopt] at hvalid ⊢
          obtain ⟨w, rest', hw, hargs, hfound⟩ := word_of_parseFrom hvalid
          have hshorter : rest'.length < (('-' :: c :: place) :: rest).length := by
            rw [← hargs, List.length_append]
            rcases w with ⟨x, xs⟩ | ⟨cs, opt, v, vs⟩ | ⟨cs, opt, optarg⟩
            · show rest'.length < 1 + rest'.length
              omega
            · show rest'.length < 1 + rest'.length
              omega
            · show rest'.length < 2 + rest'.length
              omega
          rw [hfound] at hvalid
          obtain ⟨words, rest, hwords, rfl, hrest, heq⟩ :=
            ih rest'.length hshorter (fun f hf => hvalid f (List.mem_append_right _ hf)) rfl
          refine ⟨w :: words, rest, ?_, ?_, hrest, ?_⟩
          · intro w' hw'
            rcases List.mem_cons.mp hw' with rfl | hw'
            · exact hw
            · exact hwords w' hw'
          · rw [← hargs, List.flatMap_cons, List.append_assoc]
          · rw [hfound, heq, List.flatMap_cons]
  · rintro ⟨words, rest, hwords, rfl, hrest, rfl⟩
    constructor
    · induction words with
      | nil => exact parse_of_ends hrest
      | cons w words ih =>
          rw [List.flatMap_cons, List.append_assoc, parse_word hminus (hwords w List.mem_cons_self),
            ih fun w' hw' => hwords w' (List.mem_cons_of_mem w hw'), List.flatMap_cons]
    · intro f hf
      obtain ⟨w, -, hf⟩ := List.mem_flatMap.mp hf
      exact Word.valid_of_mem_found hf

end Parse

end ZephyrSamples.Lib.Getopt
