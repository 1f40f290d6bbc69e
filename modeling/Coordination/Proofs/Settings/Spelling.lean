import Coordination.Proofs.Keyed
import Coordination.Proofs.Settings.RoundTrip
import Coordination.Proofs.Settings.Variables

/-!
Values for fields of settings, and how the two front ends spell them. A variable holds a number in
decimal and a text as it is; a document holds the same value as a member. Each field has one name
for its variable and one for its member, so both front ends read the same overlay, whatever is
spelled besides.
-/

namespace Coordination

section Numbers

namespace Text

theorem isBlank_of_isDigit {c : Char} (h : c.isDigit) : isBlank c = false := by
  have hrange : 48 ≤ c.toNat ∧ c.toNat ≤ 57 := Char.isDigit_iff_toNat.mp h
  simp only [isBlank, isBlankCode, decide_eq_false_iff_not]
  omega

theorem trimChars_of_not_blank {cs : List Char} (h : ∀ c ∈ cs, isBlank c = false) :
    trimChars cs = cs := by
  have hkeep {l : List Char} (hl : ∀ c ∈ l, isBlank c = false) : l.dropWhile isBlank = l := by
    rw [List.dropWhile_eq_self_iff]
    intro hpos
    rw [hl _ (List.getElem_mem hpos)]
    decide
  have hback : ∀ c ∈ cs.reverse, isBlank c = false := fun c hc => h c (List.mem_reverse.mp hc)
  rw [trimChars, hkeep h, hkeep hback, List.reverse_reverse]

theorem trimChars_decimal (n : Int) : trimChars (Json.decimal n) = Json.decimal n := by
  have hdigit {n : Nat} {c : Char} (h : c ∈ Nat.toDigits 10 n) : isBlank c = false :=
    isBlank_of_isDigit (Json.Number.isDigit_of_mem h)
  refine trimChars_of_not_blank fun c hc => ?_
  cases n with
  | ofNat n => exact hdigit hc
  | negSucc n =>
      rcases List.mem_cons.mp hc with rfl | hc
      · decide
      · exact hdigit hc

theorem digits?_toDigits (n : Nat) : digits? (Nat.toDigits 10 n) = some n := by
  have hdigits : ¬ ((Nat.toDigits 10 n).isEmpty ∨
      (Nat.toDigits 10 n).any fun c => ¬ ('0' ≤ c ∧ c ≤ '9')) := by
    have hall (c : Char) (hc : c ∈ Nat.toDigits 10 n) : '0' ≤ c ∧ c ≤ '9' := by
      simpa [Char.isDigit, Char.le_def] using Json.Number.isDigit_of_mem hc
    simpa [Nat.toDigits_ne_nil] using hall
  have hvalue := Json.Number.ofDigits_digits n
  rw [Json.Number.ofDigits, Json.Number.digits, List.foldl_map] at hvalue
  rw [digits?, if_neg hdigits, hvalue]

/-- A number in decimal does not begin with a sign of its own. -/
theorem toDigits_ne_sign {n : Nat} {c : Char} {r : List Char} (h : Nat.toDigits 10 n = c :: r) :
    c ≠ '+' ∧ c ≠ '-' := by
  have hdigit : c.isDigit := Json.Number.isDigit_of_mem (h ▸ List.mem_cons_self)
  refine ⟨?_, ?_⟩ <;> rintro rfl <;> revert hdigit <;> decide

theorem natural?_decimal (n : Nat) : natural? (Json.decimal n) = some n := by
  change natural? (Nat.toDigits 10 n) = some n
  unfold natural?
  split
  · rename_i r hr
    exact absurd rfl (toDigits_ne_sign hr).1
  · exact digits?_toDigits n

theorem integer?_decimal (n : Int) : integer? (Json.decimal n) = some n := by
  cases n with
  | ofNat n =>
      change integer? (Nat.toDigits 10 n) = some (n : Int)
      unfold integer?
      split
      · rename_i r hr
        exact absurd rfl (toDigits_ne_sign hr).1
      · rename_i r hr
        exact absurd rfl (toDigits_ne_sign hr).2
      · rw [digits?_toDigits]
        rfl
  | negSucc n =>
      rw [Json.decimal, integer?, digits?_toDigits]
      rfl

end Text

end Numbers

section Present

variable {β : Type}

def present (l : List (String × Option β)) : List (String × β) :=
  l.filterMap fun e => e.2.map fun b => (e.1, b)

theorem mem_present {l : List (String × Option β)} {k : String} {b : β} :
    (k, b) ∈ present l ↔ (k, some b) ∈ l := by
  simp [present, List.mem_filterMap, Option.map_eq_some_iff]

theorem keys_present (l : List (String × Option β)) :
    ((present l).map Prod.fst).Sublist (l.map Prod.fst) := by
  induction l with
  | nil => exact .slnil
  | cons e l ih =>
      obtain ⟨k, _ | b⟩ := e
      · exact ih.cons k
      · exact ih.cons_cons k

/-- Where keys are told apart, a key is found with its value, and not at all without one. -/
theorem lookup_present {l : List (String × Option β)} (h : (l.map Prod.fst).Nodup) {k : String}
    {x : Option β} (hmem : (k, x) ∈ l) : (present l).lookup k = x := by
  have hnodup := (keys_present l).nodup h
  refine Option.ext fun b => ?_
  rw [lookup_eq_some_iff_mem hnodup, mem_present]
  refine ⟨fun hb => ?_, fun hx => hx ▸ hmem⟩
  exact congrArg Prod.snd (List.inj_on_of_nodup_map h hmem hb rfl)

end Present

namespace Settings

/-- Values for some of the fields that both front ends can set; timeouts in milliseconds. -/
structure Values where
  kind : Option String := none
  length : Option UInt64 := none
  batchLength : Option UInt64 := none
  boostWorkers : Option UInt64 := none
  maxWorkers : Option Int64 := none
  workers : Option UInt64 := none
  blockMillis : Option UInt64 := none
  boostMillis : Option UInt64 := none
  deriving DecidableEq, Repr

/-- A field as the two front ends call it, and its value. -/
structure Field where
  envName : String
  jsonName : String
  value : Option Json

namespace Values

def fields (v : Values) : List Field :=
  [
    ⟨"TYPE", "type", v.kind.map .str⟩,
    ⟨"LENGTH", "length", v.length.map fun n => .nat n.toNat⟩,
    ⟨"BATCH_LENGTH", "batch_length", v.batchLength.map fun n => .nat n.toNat⟩,
    ⟨"BOOST_WORKERS", "boost_workers", v.boostWorkers.map fun n => .nat n.toNat⟩,
    ⟨"MAX_WORKERS", "max_workers", v.maxWorkers.map fun n => .int n.toInt⟩,
    ⟨"WORKERS", "workers", v.workers.map fun n => .nat n.toNat⟩,
    ⟨"BLOCK_TIMEOUT_MS", "block_timeout", v.blockMillis.map fun n => .nat n.toNat⟩,
    ⟨"BOOST_TIMEOUT_MS", "boost_timeout", v.boostMillis.map fun n => .nat n.toNat⟩]

def overlay (v : Values) : Overlay where
  kind := v.kind
  length := v.length
  batchLength := v.batchLength
  boostWorkers := v.boostWorkers
  maxWorkers := v.maxWorkers
  workers := v.workers
  blockTimeout := v.blockMillis.map fun n => Duration.ofMillis n.toNat
  boostTimeout := v.boostMillis.map fun n => Duration.ofMillis n.toNat

def members (v : Values) : List (String × Json) :=
  present (v.fields.map fun f => (f.jsonName, f.value))

/-- The text of a variable: numbers in decimal, texts as they are. -/
def spelled : Json → String
  | .str s => s
  | v => v.render

/-- The variables of the values, with their texts. -/
def texts (address : String) (v : Values) : List (String × Option String) :=
  v.fields.map fun f => (Overlay.variableName address f.envName, f.value.map spelled)

theorem simple_of_mem_members {v : Values} {m : String × Json} (hm : m ∈ v.members) :
    m.2.Simple := by
  have hstr {x : Option String} {w : Json} (h : some w = x.map .str) : w.Simple := by
    obtain ⟨s, -, rfl⟩ := Option.map_eq_some_iff.mp h.symm
    exact .str s
  have hword {x : Option UInt64} {w : Json} (h : some w = x.map fun n => .nat n.toNat) :
      w.Simple := by
    obtain ⟨n, -, rfl⟩ := Option.map_eq_some_iff.mp h.symm
    exact Json.simple_nat n.toNat_lt
  have hsigned {x : Option Int64} {w : Json} (h : some w = x.map fun n => .int n.toInt) :
      w.Simple := by
    obtain ⟨n, -, rfl⟩ := Option.map_eq_some_iff.mp h.symm
    exact Json.simple_signedWord n
  obtain ⟨name, w⟩ := m
  rw [members, mem_present] at hm
  simp only [fields, List.map_cons, List.map_nil, List.mem_cons, List.not_mem_nil, or_false,
    Prod.mk.injEq] at hm
  rcases hm with h | h | h | h | h | h | h | h
  · exact hstr h.2
  · exact hword h.2
  · exact hword h.2
  · exact hword h.2
  · exact hsigned h.2
  · exact hword h.2
  · exact hword h.2
  · exact hword h.2

section Variables

variable {env : Environment}

theorem toList_spelled_int (n : Int) : (spelled (.int n)).toList = Json.decimal n :=
  String.toList_ofList

/-- A variable that spells a value is read as what its text stands for. -/
theorem parsed_spelled {α β : Type} {read : List Char → Option β} {toJson : α → Json} {g : α → β}
    (hread : ∀ a, read (Text.trimChars (spelled (toJson a)).toList) = some (g a)) {key : String}
    {x : Option α} (h : env key = (x.map toJson).map spelled) :
    env.parsed read key = .ok (x.map g) := by
  cases x with
  | none => simp [Environment.parsed, h]
  | some a => simp [Environment.parsed, h, hread]

theorem natural?_spelled (n : Nat) :
    Text.natural? (Text.trimChars (spelled (.nat n)).toList) = some n := by
  rw [Json.nat, toList_spelled_int, Text.trimChars_decimal, Text.natural?_decimal]

theorem word_spelled {key : String} {x : Option UInt64}
    (h : env key = (x.map fun n => Json.nat n.toNat).map spelled) : env.word key = .ok x := by
  rw [Environment.word, parsed_spelled (g := id) (fun n => ?_) h, Option.map_id, id]
  rw [natural?_spelled, Option.bind_some, Text.word?_toNat, id]

theorem millis_spelled {key : String} {x : Option UInt64}
    (h : env key = (x.map fun n => Json.nat n.toNat).map spelled) :
    env.millis key = .ok (x.map fun n => Duration.ofMillis n.toNat) := by
  refine parsed_spelled (fun n => ?_) h
  rw [natural?_spelled, Option.bind_some, Text.word?_toNat, Option.map_some]

theorem signedWord_spelled {key : String} {x : Option Int64}
    (h : env key = (x.map fun n => Json.int n.toInt).map spelled) : env.signedWord key = .ok x := by
  rw [Environment.signedWord, parsed_spelled (g := id) (fun n => ?_) h, Option.map_id, id]
  rw [toList_spelled_int, Text.trimChars_decimal, Text.integer?_decimal, Option.bind_some,
    Text.signedWord?_toInt, id]

/-- Variables that spell the values are read as their overlay. -/
theorem ofEnvironment_spelled {v : Values} {address : String}
    (h : ∀ e ∈ v.texts address, env e.1 = e.2) :
    Overlay.ofEnvironment env address = .ok v.overlay := by
  simp only [texts, fields, List.map_cons, List.map_nil, List.forall_mem_cons] at h
  obtain ⟨hkind, hlength, hbatch, hboostWorkers, hmaxWorkers, hworkers, hblock, hboost, -⟩ := h
  have hkind : env (Overlay.variableName address "TYPE") = v.kind := by
    rw [hkind, Option.map_map]
    exact Option.map_id_apply
  rw [Overlay.ofEnvironment, hkind, word_spelled hlength, word_spelled hbatch,
    word_spelled hboostWorkers, signedWord_spelled hmaxWorkers, word_spelled hworkers,
    millis_spelled hblock, millis_spelled hboost]
  rfl

end Variables

section Documents

open Json.Document (last? ofJson optional)

theorem optional_spelled {α β : Type} {read : Json.Document → Option β} {toJson : α → Json}
    {g : α → β} (hread : ∀ a, read (ofJson (toJson a)) = some (g a)) (x : Option α) :
    optional read ((x.map toJson).map ofJson) = some (x.map g) := by
  cases x with
  | none => rfl
  | some a =>
      rw [Option.map_some, Option.map_some, Json.Document.optional, hread, Option.map_some]
      rfl

/-- Members with the values of the fields and without a name say the overlay. -/
theorem says_members {v : Values} {written : String → Option Json.Document}
    (hfields : ∀ f ∈ v.fields, written f.jsonName = f.value.map ofJson)
    (hname : written "name" = none) : v.overlay.Says written := by
  simp only [fields, List.forall_mem_cons] at hfields
  obtain ⟨hkind, hlength, hbatch, hboostWorkers, hmaxWorkers, hworkers, hblock, hboost, -⟩ :=
    hfields
  have hstring (x : Option String) :
      optional Json.Document.string? ((x.map Json.str).map ofJson) = some x := by
    cases x <;> rfl
  have hword := optional_spelled (g := id) Json.Document.word?_ofJson
  have hsigned := optional_spelled (g := id) Json.Document.signedWord?_ofJson
  have hspan (n : UInt64) : (ofJson (.nat n.toNat)).millis? = some (Duration.ofMillis n.toNat) := by
    rw [Json.Document.millis?, Json.Document.word?_ofJson, Option.map_some]
  have hmillis := optional_spelled hspan
  simp only [Option.map_id, id] at hword hsigned
  constructor
  · rw [hkind, hstring]
    rfl
  · rw [hname]
    rfl
  · rw [hlength, hword]
    rfl
  · rw [hbatch, hword]
    rfl
  · rw [hboostWorkers, hword]
    rfl
  · rw [hmaxWorkers, hsigned]
    rfl
  · rw [hworkers, hword]
    rfl
  · rw [hblock, hmillis]
    rfl
  · rw [hboost, hmillis]
    rfl

theorem nodup_members (v : Values) : (v.members.map Prod.fst).Nodup := by
  have hnames : ((v.fields.map fun f => (f.jsonName, f.value)).map Prod.fst).Nodup := by
    simp [fields]
  exact (keys_present _).nodup hnames

theorem lookup_members {v : Values} {f : Field} (hf : f ∈ v.fields) :
    v.members.lookup f.jsonName = f.value := by
  have hnames : ((v.fields.map fun f => (f.jsonName, f.value)).map Prod.fst).Nodup := by
    simp [fields]
  exact lookup_present hnames (List.mem_map_of_mem hf)

end Documents

end Values

/-- Values with an order for the members that spell them. -/
structure Spelled where
  values : Values
  members : List (String × Json)
  perm : members.Perm values.members

namespace Spelled

open Json.Document (ofJson)

def json (s : Spelled) : Json := .obj s.members

def read (s : Spelled) : List (String × Json.Document) := s.members.map fun m => (m.1, ofJson m.2)

theorem simple {s : Spelled} {m : String × Json} (hm : m ∈ s.members) : m.2.Simple :=
  Values.simple_of_mem_members (s.perm.mem_iff.mp hm)

/-- Members say the overlay of their values in every order. -/
theorem overlay_says (s : Spelled) : s.values.overlay.Says fun key => s.read.lookup key := by
  have hlookup := Json.Document.lookup_order s.perm s.values.nodup_members
  refine Values.says_members (fun f hf => ?_) ?_
  · rw [read, hlookup, Values.lookup_members hf]
  · have hnone : s.values.members.lookup "name" = none := by
      rw [List.lookup_eq_none_iff]
      intro m hm
      have hkey := (keys_present _).mem (List.mem_map_of_mem (f := Prod.fst) hm)
      rw [bne_iff_ne]
      rintro hname
      simp [Values.fields, ← hname] at hkey
    rw [read, hlookup, hnone, Option.map_none]

theorem ofMembers?_read (s : Spelled) : Overlay.ofMembers? s.read = some s.values.overlay := by
  have hnodup := Json.Document.nodup_order s.perm s.values.nodup_members
  have hlast : (fun name => Json.Document.last? name s.read) = fun name => s.read.lookup name :=
    funext fun name => Json.Document.last?_eq_lookup hnodup name
  rw [Overlay.ofMembers?, hlast]
  exact s.overlay_says.ofFields?

theorem ofDocument?_json (s : Spelled) :
    Settings.ofDocument? (ofJson s.json) = some (builtIn.layer s.values.overlay) := by
  rw [Settings.ofDocument?, Overlay.ofDocument?, json,
    Json.Document.fields?_order s.perm s.values.nodup_members, Option.bind_some]
  exact congrArg (Option.map builtIn.layer) s.overlay_says.ofFields?

end Spelled

end Settings

end Coordination
