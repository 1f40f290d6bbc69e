import Mathlib.Data.Nat.Digits.Defs
import Coordination.Proofs.Settings.Variables

/-!
Variables that cannot be read. A registry is loaded exactly where every numeric variable that it
asks for is a numeral in the range of its field; otherwise the first one that is not, in the order
in which variables are asked for, is reported as it stands. Reading goes on only from one variable
to the next, and never looks at what the variables before said, so the order is that of one list:
the fields of the defaults, and then those of each listed queue.
-/

namespace Coordination

namespace Text

def value (digits : List Char) : Nat :=
  Nat.ofDigits 10 (digits.reverse.map fun c => c.toNat - 48)

/-- A spelling of a number: at least one ASCII digit, behind a plus sign or none, or behind a minus
sign if the number is signed. -/
inductive Numeral (signed : Prop) : List Char → Int → Prop where
  | plain {digits : List Char} (some_left : digits ≠ []) (ascii : ∀ c ∈ digits, c.isDigit) :
    Numeral signed digits (value digits)
  | plus {digits : List Char} (some_left : digits ≠ []) (ascii : ∀ c ∈ digits, c.isDigit) :
    Numeral signed ('+' :: digits) (value digits)
  | minus (allowed : signed) {digits : List Char} (some_left : digits ≠ [])
    (ascii : ∀ c ∈ digits, c.isDigit) : Numeral signed ('-' :: digits) (-(value digits : Int))

theorem value_eq_foldl (digits : List Char) :
    value digits = digits.foldl (fun n c => 10 * n + (c.toNat - 48)) 0 := by
  rw [value, Nat.ofDigits_eq_foldr, List.foldr_map, List.foldr_reverse]
  simp only [Nat.cast_id, add_comm]

theorem digits?_eq_some {cs : List Char} {n : Nat} :
    digits? cs = some n ↔ cs ≠ [] ∧ (∀ c ∈ cs, c.isDigit) ∧ value cs = n := by
  have hdigit (c : Char) : c.isDigit = true ↔ '0' ≤ c ∧ c ≤ '9' := by
    simp [Char.isDigit, Char.le_def]
  rw [digits?, value_eq_foldl]
  split
  · rename_i hbad
    refine iff_of_false nofun ?_
    rintro ⟨hsome, hall, -⟩
    simp only [List.isEmpty_iff, hsome, false_or, List.any_eq_true, decide_eq_true_eq] at hbad
    obtain ⟨c, hc, hnot⟩ := hbad
    exact hnot ((hdigit c).mp (hall c hc))
  · rename_i hgood
    simp only [List.isEmpty_iff, List.any_eq_true, decide_eq_true_eq, ← hdigit, not_or, not_exists,
      not_and, not_not] at hgood
    rw [Option.some.injEq, and_iff_right hgood.1, and_iff_right hgood.2]

/-- A sign is no digit. -/
theorem sign_not_digit {c : Char} {r : List Char} (h : ∀ d ∈ c :: r, d.isDigit) :
    c ≠ '+' ∧ c ≠ '-' := by
  have hdigit : c.isDigit := h c List.mem_cons_self
  constructor <;> rintro rfl <;> revert hdigit <;> decide

theorem natural?_eq_some {cs : List Char} {n : Nat} :
    natural? cs = some n ↔ Numeral False cs n := by
  constructor
  · intro h
    unfold natural? at h
    split at h
    · obtain ⟨hsome, hascii, rfl⟩ := digits?_eq_some.mp h
      exact Numeral.plus hsome hascii
    · obtain ⟨hsome, hascii, rfl⟩ := digits?_eq_some.mp h
      exact Numeral.plain hsome hascii
  · generalize hm : (n : Int) = m
    intro h
    cases h with
    | plain hsome hascii =>
        unfold natural?
        split
        · exact absurd rfl (sign_not_digit hascii).1
        · exact digits?_eq_some.mpr ⟨hsome, hascii, (Int.ofNat_inj.mp hm).symm⟩
    | plus hsome hascii => exact digits?_eq_some.mpr ⟨hsome, hascii, (Int.ofNat_inj.mp hm).symm⟩
    | minus allowed => exact allowed.elim

theorem integer?_minus (r : List Char) :
    integer? ('-' :: r) = (digits? r).map fun n : Nat => -(n : Int) := by
  rw [integer?]
  cases digits? r <;> rfl

theorem integer?_eq_some {cs : List Char} {n : Int} :
    integer? cs = some n ↔ Numeral True cs n := by
  constructor
  · intro h
    unfold integer? at h
    split at h
    · obtain ⟨m, hm, rfl⟩ := Option.map_eq_some_iff.mp h
      obtain ⟨hsome, hascii, rfl⟩ := digits?_eq_some.mp hm
      exact Numeral.plus hsome hascii
    · rename_i r
      obtain ⟨m, hm, rfl⟩ := Option.map_eq_some_iff.mp ((integer?_minus r).symm.trans h)
      obtain ⟨hsome, hascii, rfl⟩ := digits?_eq_some.mp hm
      exact Numeral.minus trivial hsome hascii
    · obtain ⟨m, hm, rfl⟩ := Option.map_eq_some_iff.mp h
      obtain ⟨hsome, hascii, rfl⟩ := digits?_eq_some.mp hm
      exact Numeral.plain hsome hascii
  · intro h
    cases h with
    | plain hsome hascii =>
        unfold integer?
        split
        · exact absurd rfl (sign_not_digit hascii).1
        · exact absurd rfl (sign_not_digit hascii).2
        · exact Option.map_eq_some_iff.mpr ⟨_, digits?_eq_some.mpr ⟨hsome, hascii, rfl⟩, rfl⟩
    | plus hsome hascii =>
        exact Option.map_eq_some_iff.mpr ⟨_, digits?_eq_some.mpr ⟨hsome, hascii, rfl⟩, rfl⟩
    | minus allowed hsome hascii =>
        rw [integer?_minus]
        exact Option.map_eq_some_iff.mpr ⟨_, digits?_eq_some.mpr ⟨hsome, hascii, rfl⟩, rfl⟩

end Text

section Failures

variable {ε α β : Type}

def failure? : Except ε α → Option ε
  | .error e => some e
  | .ok _ => none

theorem failure?_eq_some {x : Except ε α} {e : ε} : failure? x = some e ↔ x = .error e := by
  cases x <;> simp [failure?]

theorem failure?_eq_none {x : Except ε α} : failure? x = none ↔ ∃ a, x = .ok a := by
  cases x <;> simp [failure?]

/-- Where what comes second fails in the same way whatever came first, the first failure counts. -/
theorem failure?_bind {x : Except ε α} {f : α → Except ε β} {second : Option ε}
    (h : ∀ a, failure? (f a) = second) : failure? (x >>= f) = (failure? x).or second := by
  cases x with
  | error e => rfl
  | ok a => exact h a

end Failures

namespace Overlay

/-- The numeric fields, in the order in which their variables are asked for. -/
def numericFields : List String :=
  ["LENGTH", "BATCH_LENGTH", "BOOST_WORKERS", "MAX_WORKERS", "WORKERS", "BLOCK_TIMEOUT_MS",
    "BOOST_TIMEOUT_MS"]

/-- The numbers that a numeric field can have. -/
def InRange (field : String) (n : Int) : Prop :=
  if field = "MAX_WORKERS" then -2 ^ 63 ≤ n ∧ n < 2 ^ 63 else 0 ≤ n ∧ n < 2 ^ 64

/-- A text can be read for a numeric field: without the white space around it, it is a numeral in
the range of the field. -/
def Readable (field text : String) : Prop :=
  ∃ n, Text.Numeral (field = "MAX_WORKERS") (Text.trim text).toList n ∧ InRange field n

/-- The variable of an address and a numeric field is set to a text that cannot be read. -/
def Faulty (env : Environment) (v : String × String) (text : String) : Prop :=
  env (variableName v.1 v.2) = some text ∧ ¬ Readable v.2 text

section Texts

theorem isSome_word (cs : List Char) :
    ((Text.natural? cs).bind Text.word?).isSome ↔
      ∃ n, Text.Numeral False cs n ∧ 0 ≤ n ∧ n < 2 ^ 64 := by
  rw [Option.isSome_iff_exists]
  constructor
  · rintro ⟨word, h⟩
    obtain ⟨n, hn, hword⟩ := Option.bind_eq_some_iff.mp h
    rw [Text.word?] at hword
    split at hword
    · rename_i hlt
      rw [wordSize] at hlt
      exact ⟨n, Text.natural?_eq_some.mp hn, by omega, by omega⟩
    · cases hword
  · rintro ⟨m, hm, hpos, hlt⟩
    obtain ⟨n, rfl⟩ := Int.eq_ofNat_of_zero_le hpos
    have hword : n < wordSize := by
      rw [wordSize]
      omega
    exact ⟨UInt64.ofNat n, Option.bind_eq_some_iff.mpr
      ⟨n, Text.natural?_eq_some.mpr hm, if_pos hword⟩⟩

theorem isSome_signedWord (cs : List Char) :
    ((Text.integer? cs).bind Text.signedWord?).isSome ↔
      ∃ n, Text.Numeral True cs n ∧ -2 ^ 63 ≤ n ∧ n < 2 ^ 63 := by
  rw [Option.isSome_iff_exists]
  constructor
  · rintro ⟨word, h⟩
    obtain ⟨n, hn, hword⟩ := Option.bind_eq_some_iff.mp h
    rw [Text.signedWord?] at hword
    split at hword
    · exact ⟨n, Text.integer?_eq_some.mp hn, by omega, by omega⟩
    · cases hword
  · rintro ⟨n, hn, hle, hlt⟩
    have hword : -9223372036854775808 ≤ n ∧ n ≤ 9223372036854775807 := by omega
    exact ⟨Int64.ofInt n, Option.bind_eq_some_iff.mpr
      ⟨n, Text.integer?_eq_some.mpr hn, if_pos hword⟩⟩

end Texts

section Reading

variable {env : Environment} {v : String × String} {e : SettingsError}

theorem failure?_parsed {α : Type} {read : List Char → Option α} {key : String} :
    failure? (env.parsed read key) = some e ↔ ∃ text, env key = some text ∧
      ¬ (read (Text.trimChars text.toList)).isSome ∧ e = .invalidVariable key text := by
  rw [Environment.parsed]
  cases env key with
  | none => simp [failure?]
  | some text =>
      cases hread : read (Text.trimChars text.toList) with
      | none =>
          simp only [failure?, hread, Option.some.injEq, exists_eq_left', Option.isSome_none,
            Bool.false_eq_true, not_false_eq_true, true_and]
          exact eq_comm
      | some a => simp [failure?, hread]

/-- What is reported for the variable of an address and a numeric field, if it is faulty. -/
def fault? (env : Environment) (v : String × String) : Option SettingsError :=
  if v.2 = "MAX_WORKERS" then failure? (env.signedWord (variableName v.1 v.2))
  else failure? (env.word (variableName v.1 v.2))

theorem fault?_eq_some : fault? env v = some e ↔
    ∃ text, Faulty env v text ∧ e = .invalidVariable (variableName v.1 v.2) text := by
  have htrim (text : String) : (Text.trim text).toList = Text.trimChars text.toList :=
    String.toList_ofList
  simp only [Faulty, Readable, InRange, htrim, and_assoc]
  rw [fault?]
  split
  · rename_i hsigned
    simp only [Environment.signedWord, failure?_parsed, isSome_signedWord, hsigned]
  · rename_i hunsigned
    simp only [Environment.word, failure?_parsed, isSome_word, hunsigned]

theorem fault?_eq_none : fault? env v = none ↔ ∀ text, ¬ Faulty env v text := by
  constructor
  · intro hnone text hfaulty
    have hsome := fault?_eq_some.mpr ⟨text, hfaulty, rfl⟩
    rw [hnone] at hsome
    cases hsome
  · intro hnone
    refine Option.eq_none_iff_forall_ne_some.mpr fun e he => ?_
    obtain ⟨text, hfaulty, -⟩ := fault?_eq_some.mp he
    exact hnone text hfaulty

/-- A span is read where its number of milliseconds is. -/
theorem failure?_millis (env : Environment) (key : String) :
    failure? (env.millis key) = failure? (env.word key) := by
  refine Option.ext fun e => ?_
  simp only [Environment.millis, Environment.word, failure?_parsed, Option.isSome_map]

/-- An overlay fails with its first faulty variable. -/
theorem failure?_ofEnvironment (env : Environment) (address : String) :
    failure? (ofEnvironment env address) =
      (numericFields.map fun field => (address, field)).findSome? (fault? env) := by
  have hword (field : String) (h : field ≠ "MAX_WORKERS") :
      failure? (env.word (variableName address field)) = fault? env (address, field) :=
    (if_neg h).symm
  have hmillis (field : String) (h : field ≠ "MAX_WORKERS") :
      failure? (env.millis (variableName address field)) = fault? env (address, field) :=
    (failure?_millis _ _).trans (hword field h)
  have hsigned : failure? (env.signedWord (variableName address "MAX_WORKERS")) =
      fault? env (address, "MAX_WORKERS") := (if_pos rfl).symm
  have hcons (v : String × String) (rest : List (String × String)) :
      (v :: rest).findSome? (fault? env) = (fault? env v).or (rest.findSome? (fault? env)) := by
    rw [List.findSome?_cons]
    cases fault? env v <;> rfl
  simp only [numericFields, List.map_cons, List.map_nil, hcons, List.findSome?_nil]
  rw [← hword "LENGTH" (by decide), ← hword "BATCH_LENGTH" (by decide),
    ← hword "BOOST_WORKERS" (by decide), ← hsigned, ← hword "WORKERS" (by decide),
    ← hmillis "BLOCK_TIMEOUT_MS" (by decide), ← hmillis "BOOST_TIMEOUT_MS" (by decide)]
  -- Whatever a variable says, the ones after it are read in the same way.
  refine failure?_bind fun length => failure?_bind fun batchLength =>
    failure?_bind fun boostWorkers =>
    failure?_bind fun maxWorkers => failure?_bind fun workers => failure?_bind fun blockTimeout =>
      failure?_bind fun boostTimeout => rfl

end Reading

end Overlay

namespace Settings.Registry

open Overlay (Faulty Readable Reads fault? fault?_eq_none fault?_eq_some numericFields variableName)

/-- What is addressed in an environment: the defaults first, and then the listed queues. -/
def addresses (env : Environment) : List String := "DEFAULT" :: (listed env).map Text.uppercase

/-- The numeric variables that a registry is loaded from, each with its address and its field, in
the order in which they are asked for. -/
def numericVariables (env : Environment) : List (String × String) :=
  (addresses env).flatMap fun address => numericFields.map fun field => (address, field)

section Loading

variable {env env' : Environment}

/-- Loading a list of queues fails with the first faulty variable of the first queue that has
one. -/
theorem failure?_foldlM_load (env : Environment) (names : List String) (r : Registry) :
    failure? (names.foldlM (load env) r) = ((names.map Text.uppercase).flatMap fun address =>
      numericFields.map fun field => (address, field)).findSome? (fault? env) := by
  induction names generalizing r with
  | nil => rfl
  | cons name names ih =>
      have hload : failure? (load env r name) =
          (numericFields.map fun field => (Text.uppercase name, field)).findSome? (fault? env) := by
        have hfirst : failure? (load env r name) =
            (failure? (Overlay.ofEnvironment env (Text.uppercase name))).or none :=
          failure?_bind fun _ => rfl
        rw [hfirst, Option.or_none, Overlay.failure?_ofEnvironment]
      rw [List.foldlM_cons, failure?_bind ih, hload, List.map_cons, List.flatMap_cons,
        List.findSome?_append]

/-- Loading a registry fails with its first faulty variable. -/
theorem failure?_ofEnvironment (env : Environment) :
    failure? (ofEnvironment env) = (numericVariables env).findSome? (fault? env) := by
  rw [ofEnvironment, failure?_bind fun _ => failure?_foldlM_load env _ _,
    Overlay.failure?_ofEnvironment, numericVariables, addresses, List.flatMap_cons,
    List.findSome?_append]
  rfl

/-- Variables that are addressed to nobody do not matter. -/
theorem ofEnvironment_congr (hnames : env' namesVariable = env namesVariable)
    (haddressed : ∀ address ∈ addresses env, ∀ key, Reads address key → env' key = env key) :
    ofEnvironment env' = ofEnvironment env := by
  have hoverlay (address : String) (h : address ∈ addresses env) :
      Overlay.ofEnvironment env' address = Overlay.ofEnvironment env address :=
    Overlay.ofEnvironment_congr (haddressed address h)
  have hfold (names : List String) (hlisted : ∀ q ∈ names, q ∈ listed env) (r : Registry) :
      names.foldlM (load env') r = names.foldlM (load env) r := by
    induction names generalizing r with
    | nil => rfl
    | cons name names ih =>
        have hname : Text.uppercase name ∈ addresses env :=
          List.mem_cons_of_mem _ (List.mem_map_of_mem (hlisted name List.mem_cons_self))
        have hload : load env' r name = load env r name := by
          rw [load, load, hoverlay _ hname]
        rw [List.foldlM_cons, List.foldlM_cons, hload]
        exact congrArg _ (funext fun s => ih (fun q hq => hlisted q (List.mem_cons_of_mem _ hq)) s)
  rw [ofEnvironment, ofEnvironment, hoverlay "DEFAULT" List.mem_cons_self, hnames]
  exact congrArg _ (funext fun d => hfold (listed env) (fun _ hq => hq) _)

/-- Loading from variables fails exactly on the first variable that cannot be read, and reports it.
A registry is loaded exactly if every numeric variable that is set for the defaults or for a listed
queue is, without the white space around it, a numeral in the range of its field. Otherwise the
first one that is not is reported by its name and with its text as it stands: the fields of the
defaults come first, then the listed queues in their order, and the fields in theirs. No variable
matters but the list of queues and those that are addressed to the defaults or to a listed queue. -/
theorem first_fault_reported (env : Environment) :
    ((∃ r, ofEnvironment env = .ok r) ↔
      ∀ v ∈ numericVariables env, ∀ text, env (variableName v.1 v.2) = some text →
        Readable v.2 text) ∧
    (∀ e, ofEnvironment env = .error e ↔
      ∃ before v after text, numericVariables env = before ++ v :: after ∧
        (∀ u ∈ before, ∀ t, env (variableName u.1 u.2) = some t → Readable u.2 t) ∧
        env (variableName v.1 v.2) = some text ∧ ¬ Readable v.2 text ∧
        e = .invalidVariable (variableName v.1 v.2) text) ∧
    ∀ env', env' namesVariable = env namesVariable →
      (∀ address ∈ addresses env, ∀ key, Reads address key → env' key = env key) →
      ofEnvironment env' = ofEnvironment env := by
  have hsound (v : String × String) : fault? env v = none ↔
      ∀ text, env (variableName v.1 v.2) = some text → Readable v.2 text := by
    simp only [fault?_eq_none, Faulty, not_and, not_not]
  refine ⟨?_, fun e => ?_, fun env' => ofEnvironment_congr⟩
  · rw [← failure?_eq_none, failure?_ofEnvironment, List.findSome?_eq_none_iff]
    exact forall₂_congr fun v _ => hsound v
  · rw [← failure?_eq_some, failure?_ofEnvironment, List.findSome?_eq_some_iff]
    constructor
    · rintro ⟨before, v, after, hsplit, hfault, hbefore⟩
      obtain ⟨text, ⟨hset, hbad⟩, he⟩ := fault?_eq_some.mp hfault
      exact ⟨before, v, after, text, hsplit, fun u hu => (hsound u).mp (hbefore u hu), hset, hbad,
        he⟩
    · rintro ⟨before, v, after, text, hsplit, hbefore, hset, hbad, he⟩
      exact ⟨before, v, after, hsplit, fault?_eq_some.mpr ⟨text, ⟨hset, hbad⟩, he⟩,
        fun u hu => (hsound u).mpr (hbefore u hu)⟩

/-- Two queues with faults, listed against the order of their names, a third one that is not listed,
and a limit below zero, which is none. -/
def faultyVariables : Environment :=
  .ofList [("QUEUE_NAMES", "b, a"), ("QUEUE_A_LENGTH", "many"), ("QUEUE_B_MAX_WORKERS", " -5 "),
    ("QUEUE_B_WORKERS", " -1"), ("QUEUE_B_BOOST_TIMEOUT_MS", "1s"), ("QUEUE_C_LENGTH", "few")]

theorem first_fault_reported_workers :
    numericVariables faultyVariables =
      (numericVariables faultyVariables).take 11 ++ ("B", "WORKERS") ::
        (numericVariables faultyVariables).drop 12 ∧
      Readable "MAX_WORKERS" " -5 " ∧ ¬ Readable "WORKERS" " -1" ∧
      ofEnvironment faultyVariables = .error (.invalidVariable "QUEUE_B_WORKERS" " -1") := by
  have hsplit : numericVariables faultyVariables =
      (numericVariables faultyVariables).take 11 ++ ("B", "WORKERS") ::
        (numericVariables faultyVariables).drop 12 := by decide
  have hbefore : ∀ u ∈ (numericVariables faultyVariables).take 11,
      fault? faultyVariables u = none := by decide
  have hsound : ∀ u ∈ (numericVariables faultyVariables).take 11, ∀ t,
      faultyVariables (variableName u.1 u.2) = some t → Readable u.2 t := fun u hu t ht =>
    not_not.mp fun hbad => fault?_eq_none.mp (hbefore u hu) t ⟨ht, hbad⟩
  have hfault : fault? faultyVariables ("B", "WORKERS") =
      some (.invalidVariable "QUEUE_B_WORKERS" " -1") := by decide
  obtain ⟨text, ⟨hset, hbad⟩, he⟩ := fault?_eq_some.mp hfault
  obtain ⟨-, rfl⟩ := SettingsError.invalidVariable.inj he
  have hlimit : Readable "MAX_WORKERS" " -5 " :=
    hsound ("B", "MAX_WORKERS") (by decide) _ (by decide)
  exact ⟨hsplit, hlimit, hbad, ((first_fault_reported faultyVariables).2.1 _).mpr
    ⟨_, _, _, _, hsplit, hsound, hset, hbad, he⟩⟩

end Loading

end Settings.Registry

end Coordination
