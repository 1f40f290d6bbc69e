import Coordination.Proofs.Json.RoundTrip
import Coordination.Proofs.Settings.Precedence

/-!
Registries that are written and read back. Reading puts each entry over the defaults and may replace
its name by its key; neither changes an entry that was written from a registry, because it says
every field, and because the names in a registry have been replaced already.
-/

namespace Coordination

namespace Json

/-- A text, or an integer that fits a 64-bit word but for its sign. -/
inductive Simple : Json → Prop
  | str (s : String) : Simple (.str s)
  | int {n : Int} (h : n.natAbs < wordSize) : Simple (.int n)

theorem simple_nat {n : Nat} (h : n < wordSize) : Simple (.nat n) := .int h

theorem simple_signedWord (n : Int64) : Simple (.int n.toInt) := by
  have hlow := n.le_toInt
  have hhigh := n.toInt_lt
  exact .int (by rw [wordSize]; omega)

theorem Simple.sound {v : Json} (h : v.Simple) (levels : Nat) :
    (Document.ofJson v).sound levels = true := by
  cases h with
  | str s => rfl
  | int h =>
      rw [Document.ofJson_int]
      exact Number.finite_ofInt h

end Json

namespace Settings

theorem simple_of_mem_members {s : Settings} {m : String × Json} (hm : m ∈ s.members) :
    m.2.Simple := by
  have hmillis (d : Duration) : d.writtenMillis < wordSize := Nat.mod_lt _ (by decide)
  simp only [members, List.mem_cons, List.not_mem_nil, or_false] at hm
  rcases hm with rfl | rfl | rfl | rfl | rfl | rfl | rfl | rfl | rfl
  · exact .str s.kind
  · exact .str s.name
  · exact Json.simple_nat s.length.toNat_lt
  · exact Json.simple_nat s.batchLength.toNat_lt
  · exact Json.simple_nat s.boostWorkers.toNat_lt
  · exact Json.simple_signedWord s.maxWorkers
  · exact Json.simple_nat s.workers.toNat_lt
  · exact Json.simple_nat (hmillis s.blockTimeout)
  · exact Json.simple_nat (hmillis s.boostTimeout)

/-- An entry of simple values may be kept. -/
theorem sound_entry {members : List (String × Json)} (h : ∀ m ∈ members, m.2.Simple) :
    (Json.Document.ofJson (.obj members)).sound Registry.entryLevels = true :=
  Json.Document.soundMembers_ofMembers fun m hm => (h m hm).sound 124

theorem entryMembers?_ofJson {members : List (String × Json)} (h : ∀ m ∈ members, m.2.Simple) :
    Registry.entryMembers? (Json.Document.ofJson (.obj members)) =
      some (members.map fun m => (m.1, Json.Document.ofJson m.2)) := by
  rw [Registry.entryMembers?, if_pos (sound_entry h), Json.Document.members?_ofJson]

end Settings

namespace Settings.Registry

/-- A registry that was read from a text, loaded from variables, or made from defaults, and to which
settings may have been added. -/
inductive Built : Registry → Prop
  | parsed {text : String} {r : Registry} (h : parse text = some r) : Built r
  | loaded {env : Environment} {r : Registry} (h : ofEnvironment env = .ok r) : Built r
  | new (defaults : Settings) : Built { defaults }
  | insert {r : Registry} (h : Built r) (s : Settings) : Built (r.insert s)

/-- All timeouts of the registry can be written. -/
structure Whole (r : Registry) : Prop where
  defaults : r.defaults.Whole
  queues : ∀ (key : String) (s : Settings), r.queues[key]? = some s → s.Whole

/-- No entry of the registry has a name that is replaced when it is read under its key. -/
def NamesFit (r : Registry) : Prop :=
  ∀ (key : String) (s : Settings), r.queues[key]? = some s → nameFor key s.name = s.name

/-- The JSON form with the entries in some order. -/
def toJsonIn (r : Registry) (order : List (String × Settings)) : Json :=
  .obj [
    ("defaults", r.defaults.toJson),
    ("queues", .obj (order.map fun q => (q.1, q.2.toJson)))]

theorem toJson_eq (r : Registry) : r.toJson = r.toJsonIn r.queues.toList := rfl

theorem nameFor_key (key : String) : nameFor key key = key := by
  rw [nameFor, ite_self]

theorem nameFor_nameFor (key name : String) :
    nameFor key (nameFor key name) = nameFor key name := by
  by_cases h : name = "" ∨ name = "default"
  · rw [nameFor, nameFor, if_pos h, ite_self]
  · rw [nameFor, nameFor, if_neg h, if_neg h]

/-- Every registry has names that stay. -/
theorem Built.namesFit {r : Registry} (h : Built r) : r.NamesFit := by
  induction h with
  | parsed h =>
      intro key s hs
      obtain ⟨doc, -, hr⟩ := Option.bind_eq_some_iff.mp h
      obtain ⟨defaults, entries, -, hfilled⟩ := ofDocument?_eq_some.mp hr
      by_cases hkey : key ∈ entries.map Prod.fst
      · obtain ⟨e, he, rfl⟩ := List.mem_map.mp hkey
        obtain ⟨o, -, hlisted⟩ := hfilled.listed e he
        obtain rfl := Option.some.inj (hlisted.symm.trans hs)
        exact nameFor_nameFor _ _
      · rw [hfilled.others key hkey] at hs
        cases hs
  | loaded h =>
      intro key s hs
      obtain ⟨-, -, hnamed, -⟩ := forQueue_ofEnvironment h
      rw [hnamed key s hs, nameFor_key]
  | new defaults =>
      intro key s hs
      simp at hs
  | insert _ t ih =>
      intro key s hs
      rw [getElem?_insert] at hs
      split at hs
      · rename_i hkey
        rw [← Option.some.inj hs, ← hkey, nameFor_key]
      · exact ih key s hs

theorem entries?_ofJson (order : List (String × List (String × Json)))
    (h : ∀ e ∈ order, ∀ m ∈ e.2, m.2.Simple) :
    entries? (Json.Document.ofJson (.obj (order.map fun e => (e.1, .obj e.2)))) =
      some (order.map fun e => (e.1, e.2.map fun m => (m.1, Json.Document.ofJson m.2))) := by
  rw [entries?, Json.Document.members?_ofJson]
  simp only [bind, Option.bind_some]
  induction order with
  | nil => rfl
  | cons e order ih =>
      have hrest := ih fun e he => h e (List.mem_cons_of_mem _ he)
      simp only [List.map_cons, List.mapM_cons, entryMembers?_ofJson (h e List.mem_cons_self),
        hrest]
      rfl

theorem entries?_toJson (order : List (String × Settings)) :
    entries? (Json.Document.ofJson (.obj (order.map fun q => (q.1, q.2.toJson)))) =
      some (order.map fun q => (q.1, writtenMembers q.2)) := by
  have hentries := entries?_ofJson (order.map fun q => (q.1, q.2.members)) (by
    intro e he
    obtain ⟨q, -, rfl⟩ := List.mem_map.mp he
    exact fun m => simple_of_mem_members)
  rw [List.map_map, List.map_map] at hentries
  exact hentries

theorem parts?_toJsonIn {r : Registry} (hdefaults : r.defaults.Whole)
    (order : List (String × Settings)) :
    parts? (Json.Document.ofJson (r.toJsonIn order)) = some (r.defaults,
      (lastEntries (order.map fun q => (q.1, writtenMembers q.2))).toList) := by
  have hfields : (Json.Document.ofJson (r.toJsonIn order)).fields? .open fieldNames =
      some [some (Json.Document.ofJson r.defaults.toJson),
        some (Json.Document.ofJson (.obj (order.map fun q => (q.1, q.2.toJson))))] := by
    rfl
  rw [parts?, hfields]
  simp only [bind, Option.bind_some, Json.Document.optional, ofDocument?_toJson hdefaults,
    entries?_toJson]
  rfl

/-- A registry that is written and read back is the same registry, in whatever order its entries
are written: when all its timeouts are whole milliseconds that fit a 64-bit word. -/
theorem Built.parse_toJson {r : Registry} (h : Built r) (hwhole : r.Whole) :
    parse r.toJson.render = some r ∧
      ∀ order, List.Perm order r.queues.toList → parse (r.toJsonIn order).render = some r := by
  have hread (order : List (String × Settings)) (horder : order.Perm r.queues.toList) :
      parse (r.toJsonIn order).render = some r := by
    rw [parse, Json.Document.parse_render, Option.bind_some, ofDocument?_eq_some]
    have hkeys : (order.map Prod.fst).Perm (r.queues.toList.map Prod.fst) := horder.map Prod.fst
    have hnodup : ((order.map fun q => (q.1, writtenMembers q.2)).map Prod.fst).Nodup := by
      rw [List.map_map]
      exact hkeys.nodup_iff.mpr (nodup_keys_toList _)
    -- No key is written twice, so every entry that was written is the last one of its key.
    refine ⟨_, _, parts?_toJsonIn hwhole.defaults order, rfl, fun e he => ?_, fun q hq => ?_⟩
    · obtain ⟨⟨key, s⟩, hmem, rfl⟩ := List.mem_map.mp ((mem_toList_lastEntries hnodup).mp he)
      have hlookup := Std.ExtTreeMap.mem_toList_iff_getElem?_eq_some.mp (horder.mem_iff.mp hmem)
      have hmembers := Overlay.ofMembers?_written (hwhole.queues key s hlookup) []
      rw [List.append_nil] at hmembers
      refine ⟨Overlay.ofSettings s, hmembers, ?_⟩
      have hentry : entry r.defaults key (Overlay.ofSettings s) =
          { s with name := nameFor key s.name } := rfl
      rw [hlookup, hentry, h.namesFit key s hlookup]
    · cases hlookup : r.queues[q]? with
      | none => rfl
      | some s =>
          have hmem :=
            horder.mem_iff.mpr (Std.ExtTreeMap.mem_toList_iff_getElem?_eq_some.mpr hlookup)
          have hwritten := (mem_toList_lastEntries hnodup).mpr
            (List.mem_map_of_mem (f := fun q => (q.1, writtenMembers q.2)) hmem)
          exact absurd (List.mem_map_of_mem (f := Prod.fst) hwritten) hq
  refine ⟨?_, hread⟩
  rw [toJson_eq]
  exact hread _ (.refl _)

theorem whole_new {defaults : Settings} (h : defaults.Whole) : Whole { defaults } where
  defaults := h
  queues := fun key s hs => by simp at hs

theorem Whole.insert {r : Registry} (h : r.Whole) {s : Settings} (hs : s.Whole) :
    (r.insert s).Whole where
  defaults := h.defaults
  queues := fun key t ht => by
    rw [getElem?_insert] at ht
    split at ht
    · rwa [← Option.some.inj ht]
    · exact h.queues key t ht

/-- Defaults with two entries, one of them under the empty name. -/
def mailRegistry : Registry :=
  (insert { defaults := { builtIn with length := 50 } } { name := "mail", maxWorkers := -1 }).insert
    { name := "" }

theorem Built.parse_toJson_mail :
    Built mailRegistry ∧ mailRegistry.Whole ∧
      parse mailRegistry.toJson.render = some mailRegistry ∧
      ∀ order, List.Perm order mailRegistry.queues.toList →
        parse (mailRegistry.toJsonIn order).render = some mailRegistry := by
  have hbuilt : Built mailRegistry := .insert (.insert (.new _) _) _
  have hblock := whole_builtIn.block
  have hboost := whole_builtIn.boost
  have hdefaults : Settings.Whole { builtIn with length := 50 } := ⟨hblock, hboost⟩
  have hmail : Settings.Whole { name := "mail", maxWorkers := -1 } := ⟨hblock, hboost⟩
  have hempty : Settings.Whole { name := "" } := ⟨hblock, hboost⟩
  have hwhole : mailRegistry.Whole := ((whole_new hdefaults).insert hmail).insert hempty
  exact ⟨hbuilt, hwhole, hbuilt.parse_toJson hwhole⟩

end Settings.Registry

end Coordination
