import Coordination.Proofs.Json.Numbers
import Coordination.Proofs.Json.Records
import Coordination.Settings.Registry

/-!
Settings that are written and read back. Timeouts are written as 64-bit numbers of milliseconds and
come back narrowed to them, so only settings whose timeouts are whole milliseconds in that range
come back as they were; timeouts that were read are of this kind. Members behind the written ones
take their place, so what is read back from both together is what the members set over the settings.
-/

namespace Coordination

namespace Duration

/-- A span that can be written: whole milliseconds that fit a 64-bit word. -/
structure Whole (d : Duration) : Prop where
  no_rest : d.nanos % 1000000 = 0
  fits : d.millis < wordSize

instance (d : Duration) : Decidable d.Whole :=
  decidable_of_iff (d.nanos % 1000000 = 0 ∧ d.millis < wordSize)
    ⟨fun h => ⟨h.1, h.2⟩, fun h => ⟨h.no_rest, h.fits⟩⟩

theorem nanos_ofMillis {n : Nat} (h : n < wordSize) : (ofMillis n).nanos = n * 1000000 := by
  have hmax : n * 1000000 ≤ maxNanos := by
    rw [wordSize] at h
    rw [maxNanos]
    omega
  exact Nat.min_eq_left hmax

theorem whole_ofMillis {n : Nat} (h : n < wordSize) : (ofMillis n).Whole where
  no_rest := by rw [nanos_ofMillis h, Nat.mul_mod_left]
  fits := by rwa [millis, nanos_ofMillis h, Nat.mul_div_cancel _ (by decide)]

/-- What is left of a span that is written and read back. -/
def asWritten (d : Duration) : Duration := ofMillis d.writtenMillis

theorem whole_asWritten (d : Duration) : d.asWritten.Whole :=
  whole_ofMillis (Nat.mod_lt _ (by decide))

/-- A span that can be written is the one of the written number. -/
theorem Whole.asWritten_eq {d : Duration} (h : d.Whole) : d.asWritten = d := by
  have hwritten : d.writtenMillis = d.millis := Nat.mod_eq_of_lt h.fits
  refine ext_nanos ?_
  rw [asWritten, hwritten, nanos_ofMillis h.fits, millis,
    Nat.div_mul_cancel (Nat.dvd_of_mod_eq_zero h.no_rest)]

/-- Of the longest span, whose milliseconds do not fit a word, the lowest 64 bits are left. -/
example : longest.asWritten = ofMillis 18446744073709551615 := by decide

end Duration

namespace Text

theorem word?_toNat (n : UInt64) : word? n.toNat = some n := by
  have hlt : n.toNat < wordSize := n.toNat_lt
  rw [word?, if_pos hlt, UInt64.ofNat_toNat]

theorem signedWord?_toInt (n : Int64) : signedWord? n.toInt = some n := by
  have hlow := n.le_toInt
  have hhigh := n.toInt_lt
  rw [signedWord?, if_pos (by omega), Int64.ofInt_toInt]

end Text

namespace Json.Document

theorem integer?_ofJson (n : Int) : (ofJson (.int n)).integer? = some n := by
  rw [ofJson_int, integer?, Number.int?_ofInt]

theorem word?_ofJson (n : UInt64) : word? (ofJson (.nat n.toNat)) = some n := by
  have hint : (ofJson (.nat n.toNat)).integer? = some (Int.ofNat n.toNat) := integer?_ofJson _
  simp only [word?, hint]
  exact Text.word?_toNat n

theorem signedWord?_ofJson (n : Int64) : signedWord? (ofJson (.int n.toInt)) = some n := by
  rw [signedWord?, integer?_ofJson, Option.bind_some, Text.signedWord?_toInt]

theorem millis?_ofJson (d : Duration) :
    millis? (ofJson (.nat d.writtenMillis)) = some d.asWritten := by
  have hlt : d.writtenMillis < UInt64.size := Nat.mod_lt _ (by decide)
  have hword := word?_ofJson (UInt64.ofNat d.writtenMillis)
  rw [UInt64.toNat_ofNat_of_lt' hlt] at hword
  rw [millis?, hword, Option.map_some, UInt64.toNat_ofNat_of_lt' hlt, Duration.asWritten]

theorem whole_of_millis? {doc : Document} {d : Duration} (h : millis? doc = some d) : d.Whole := by
  obtain ⟨n, -, rfl⟩ := Option.map_eq_some_iff.mp h
  exact Duration.whole_ofMillis n.toNat_lt

/-- A field that may be left out, with a value for it underneath. -/
theorem optional_or {α : Type} {f : Document → Option α} {d : Document} {a : α} (h : f d = some a)
    (x : Option Document) :
    optional f (x.or (some d)) = (optional f x).map fun o => some (o.getD a) := by
  cases x with
  | none => simp [optional, h]
  | some d => cases hd : f d <;> simp [optional, hd]

end Json.Document

namespace Settings

structure Whole (s : Settings) : Prop where
  block : s.blockTimeout.Whole
  boost : s.boostTimeout.Whole

def asWritten (s : Settings) : Settings :=
  { s with blockTimeout := s.blockTimeout.asWritten, boostTimeout := s.boostTimeout.asWritten }

theorem asWritten_eq_iff {s : Settings} : s.asWritten = s ↔ s.Whole := by
  constructor
  · intro h
    rw [← h]
    exact ⟨s.blockTimeout.whole_asWritten, s.boostTimeout.whole_asWritten⟩
  · intro h
    rw [asWritten, h.block.asWritten_eq, h.boost.asWritten_eq]

end Settings

namespace Overlay

open Json.Document

/-- The overlay that sets every field. -/
def ofSettings (s : Settings) : Overlay where
  kind := some s.kind
  name := some s.name
  length := some s.length
  batchLength := some s.batchLength
  boostWorkers := some s.boostWorkers
  maxWorkers := some s.maxWorkers
  workers := some s.workers
  blockTimeout := some s.blockTimeout
  boostTimeout := some s.boostTimeout

/-- Members that are read behind written settings say something over what is left of these. -/
theorem ofMembers?_asWritten (s : Settings) (members : List (String × Json.Document)) :
    ofMembers? (Settings.Registry.writtenMembers s ++ members) =
      (ofMembers? members).map fun o => ofSettings (s.asWritten.layer o) := by
  have hwritten (name : String) (d : Json.Document)
      (h : last? name (Settings.Registry.writtenMembers s) = some d) :
      last? name (Settings.Registry.writtenMembers s ++ members) =
        (last? name members).or (some d) := by
    rw [Json.Document.last?_append, h]
  simp only [ofMembers?, fieldNames, List.map_cons, List.map_nil]
  rw [hwritten "type" _ rfl, hwritten "name" _ rfl, hwritten "length" _ rfl,
    hwritten "batch_length" _ rfl, hwritten "boost_workers" _ rfl, hwritten "max_workers" _ rfl,
    hwritten "workers" _ rfl, hwritten "block_timeout" _ rfl, hwritten "boost_timeout" _ rfl]
  simp only [ofFields?]
  rw [optional_or (a := s.kind) rfl, optional_or (a := s.name) rfl,
    optional_or (word?_ofJson s.length), optional_or (word?_ofJson s.batchLength),
    optional_or (word?_ofJson s.boostWorkers), optional_or (signedWord?_ofJson s.maxWorkers),
    optional_or (word?_ofJson s.workers), optional_or (millis?_ofJson s.blockTimeout),
    optional_or (millis?_ofJson s.boostTimeout)]
  simp only [bind, Option.bind_map, Option.map_bind, pure, Option.map_some, Function.comp_def,
    Settings.asWritten]
  -- What the spans are does not matter, and would be computed.
  generalize s.blockTimeout.asWritten = block
  generalize s.boostTimeout.asWritten = boost
  rfl

theorem ofMembers?_written {s : Settings} (hs : s.Whole)
    (members : List (String × Json.Document)) :
    ofMembers? (Settings.Registry.writtenMembers s ++ members) =
      (ofMembers? members).map fun o => ofSettings (s.layer o) := by
  rw [ofMembers?_asWritten, Settings.asWritten_eq_iff.mpr hs]

open Json.Document (millis? optional signedWord? string? word?) in
/-- The overlay says what is written for each field. -/
structure Says (o : Overlay) (written : String → Option Json.Document) : Prop where
  kind : optional string? (written "type") = some o.kind
  name : optional string? (written "name") = some o.name
  length : optional word? (written "length") = some o.length
  batchLength : optional word? (written "batch_length") = some o.batchLength
  boostWorkers : optional word? (written "boost_workers") = some o.boostWorkers
  maxWorkers : optional signedWord? (written "max_workers") = some o.maxWorkers
  workers : optional word? (written "workers") = some o.workers
  blockTimeout : optional millis? (written "block_timeout") = some o.blockTimeout
  boostTimeout : optional millis? (written "boost_timeout") = some o.boostTimeout

theorem says_nothing : Says {} fun _ => none := ⟨rfl, rfl, rfl, rfl, rfl, rfl, rfl, rfl, rfl⟩

section Says

variable {o : Overlay} {written : String → Option Json.Document}

theorem says_of_ofFields? (h : ofFields? (fieldNames.map written) = some o) : o.Says written := by
  simp only [fieldNames, List.map_cons, List.map_nil, ofFields?, bind, Option.bind_eq_some_iff,
    pure, Option.some.injEq] at h
  obtain ⟨kind, hkind, name, hname, length, hlength, batch, hbatch, boostWorkers, hboostWorkers,
    maxWorkers, hmaxWorkers, workers, hworkers, block, hblock, boost, hboost, rfl⟩ := h
  exact ⟨hkind, hname, hlength, hbatch, hboostWorkers, hmaxWorkers, hworkers, hblock, hboost⟩

/-- An overlay that says what is written is read. -/
theorem Says.ofFields? (h : o.Says written) : ofFields? (fieldNames.map written) = some o := by
  simp only [fieldNames, List.map_cons, List.map_nil, Overlay.ofFields?, h.kind, h.name, h.length,
    h.batchLength, h.boostWorkers, h.maxWorkers, h.workers, h.blockTimeout, h.boostTimeout]
  rfl

theorem says_of_ofMembers? {members : List (String × Json.Document)}
    (h : ofMembers? members = some o) : o.Says fun key => Json.Document.last? key members :=
  says_of_ofFields? h

theorem says_of_ofDocument? {doc : Json.Document} (h : ofDocument? doc = some o) :
    o.Says (Json.Document.written fieldNames doc) := by
  obtain ⟨fields, hfields, h⟩ := Option.bind_eq_some_iff.mp h
  rw [Json.Document.fields?_eq_some (by decide) hfields] at h
  exact says_of_ofFields? h

/-- Settings that can be written can be written with an overlay that was read. -/
theorem Says.whole_layer (h : o.Says written) {s : Settings} (hs : s.Whole) :
    (s.layer o).Whole := by
  have hspan {key : String} {span : Option Duration} {d : Duration} (hd : d.Whole)
      (hread : Json.Document.optional Json.Document.millis? (written key) = some span) :
      (span.getD d).Whole := by
    cases hkey : written key with
    | none =>
        rw [hkey] at hread
        obtain rfl : none = span := Option.some.inj hread
        exact hd
    | some doc =>
        rw [hkey] at hread
        obtain ⟨d, hd, rfl⟩ := Option.map_eq_some_iff.mp hread
        exact Json.Document.whole_of_millis? hd
  exact ⟨hspan hs.block h.blockTimeout, hspan hs.boost h.boostTimeout⟩

end Says

end Overlay

namespace Settings

theorem whole_builtIn : builtIn.Whole := ⟨by decide, by decide⟩

/-- Members that are read behind written settings are put over them. -/
theorem ofMembers?_written {s : Settings} (hs : s.Whole) (members : List (String × Json.Document)) :
    ofMembers? (Registry.writtenMembers s ++ members) =
      (Overlay.ofMembers? members).map s.layer := by
  rw [ofMembers?, Overlay.ofMembers?_written hs, Option.map_map]
  rfl

/-- Settings that are written are read as what is left of them. -/
theorem ofDocument?_asWritten (s : Settings) :
    ofDocument? (Json.Document.ofJson s.toJson) = some s.asWritten := by
  have hfields : (Json.Document.ofJson s.toJson).fields? .open Overlay.fieldNames =
      some (Overlay.fieldNames.map fun n =>
        Json.Document.last? n (Registry.writtenMembers s ++ [])) := rfl
  have hoverlay : Overlay.ofDocument? (Json.Document.ofJson s.toJson) =
      Overlay.ofMembers? (Registry.writtenMembers s ++ []) := by
    rw [Overlay.ofDocument?, hfields]
    rfl
  have hlayer (t : Settings) : ((Overlay.ofMembers? []).map fun o =>
      Overlay.ofSettings (t.layer o)).map builtIn.layer = some t := rfl
  rw [ofDocument?, hoverlay, Overlay.ofMembers?_asWritten, hlayer]

theorem ofDocument?_toJson {s : Settings} (hs : s.Whole) :
    ofDocument? (Json.Document.ofJson s.toJson) = some s := by
  rw [ofDocument?_asWritten, asWritten_eq_iff.mpr hs]

end Settings

end Coordination
