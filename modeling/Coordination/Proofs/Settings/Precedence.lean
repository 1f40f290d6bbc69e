import Coordination.Proofs.Settings.Filling

/-!
What the queues of a registry document get. Field by field, the entry of a queue comes before the
defaults of the document, and these before the built-in values; entries have no order, and members
of other names have no effect.
-/

namespace Coordination

namespace Overlay

/-- The settings of the queue `q` whose entry is `e`, over the defaults `d` and the built-in values.
The name in an entry counts unless it is empty or `default`. -/
def resolve (e d : Overlay) (q : String) : Settings where
  kind := (e.kind.or d.kind).getD Settings.builtIn.kind
  name := (e.name.filter fun n => n ≠ "" ∧ n ≠ "default").getD q
  length := (e.length.or d.length).getD Settings.builtIn.length
  batchLength := (e.batchLength.or d.batchLength).getD Settings.builtIn.batchLength
  boostWorkers := (e.boostWorkers.or d.boostWorkers).getD Settings.builtIn.boostWorkers
  maxWorkers := (e.maxWorkers.or d.maxWorkers).getD Settings.builtIn.maxWorkers
  workers := (e.workers.or d.workers).getD Settings.builtIn.workers
  blockTimeout := (e.blockTimeout.or d.blockTimeout).getD Settings.builtIn.blockTimeout
  boostTimeout := (e.boostTimeout.or d.boostTimeout).getD Settings.builtIn.boostTimeout

theorem entry_eq_resolve (e d : Overlay) (q : String) :
    Settings.Registry.entry (Settings.builtIn.layer d) q e = e.resolve d q := by
  have hget {α : Type} (x y : Option α) (a : α) : x.getD (y.getD a) = (x.or y).getD a := by
    cases x <;> rfl
  have hname : Settings.Registry.nameFor q (e.name.getD q) =
      (e.name.filter fun n => n ≠ "" ∧ n ≠ "default").getD q := by
    cases e.name with
    | none => simp [Settings.Registry.nameFor]
    | some n =>
        by_cases hn : n = "" ∨ n = "default"
        · rcases hn with rfl | rfl <;> rfl
        · have hkeep : decide (n ≠ "" ∧ n ≠ "default") = true := decide_eq_true (not_or.mp hn)
          rw [Option.getD_some, Settings.Registry.nameFor, if_neg hn, Option.filter_some,
            if_pos hkeep, Option.getD_some]
  simp only [Settings.Registry.entry, Settings.layer, hget, hname, resolve]

end Overlay

namespace Json.Document

/-- The last member of a name in an object. -/
def member? (name : String) (doc : Document) : Option Document := doc.members?.bind (last? name)

theorem member?_eq (name : String) (doc : Document) :
    member? name doc = last? name (doc.members?.getD []) := by
  cases h : doc.members? with
  | none => rw [member?, h]; rfl
  | some members => rw [member?, h]; rfl

end Json.Document

namespace Settings.Registry

open Json (Document)
open Json.Document (keep last? mapMembers member? optional written)

section Reading

variable {doc : Document} {defaults : Settings} {entries : Entries}

/-- What the defaults of a document give for a key. -/
def inDefaults (doc : Document) (key : String) : Option Document := do
  let defaults ← written fieldNames doc "defaults"
  written Overlay.fieldNames defaults key

/-- What a document gives for a key in the entry of a queue. -/
def inEntry (doc : Document) (q key : String) : Option Document := do
  let queues ← written fieldNames doc "queues"
  let entry ← member? q queues
  member? key entry

theorem entries?_eq_some {queues : Document} (h : entries? queues = some entries) :
    ∃ members, queues.members? = some members ∧
      entries = members.map fun m => (m.1, m.2.members?.getD []) := by
  obtain ⟨members, hmembers, h⟩ := Option.bind_eq_some_iff.mp h
  refine ⟨members, hmembers, Json.Document.mapM_eq_map (fun m e he => ?_) h⟩
  obtain ⟨fields, hfields, rfl⟩ := Option.map_eq_some_iff.mp he
  rw [entryMembers?] at hfields
  split at hfields
  · rw [hfields, Option.getD_some]
  · cases hfields

theorem parts?_eq_some (h : parts? doc = some (defaults, entries)) :
    ∃ settings queues,
      optional Settings.ofDocument? (written fieldNames doc "defaults") = some settings ∧
      optional entries? (written fieldNames doc "queues") = some queues ∧
      defaults = settings.getD builtIn ∧ entries = (lastEntries (queues.getD [])).toList := by
  obtain ⟨fields, hfields, h⟩ := Option.bind_eq_some_iff.mp h
  rw [Json.Document.fields?_eq_some (by decide) hfields] at h
  obtain ⟨settings, hsettings, h⟩ := Option.bind_eq_some_iff.mp h
  obtain ⟨queues, hqueues, h⟩ := Option.bind_eq_some_iff.mp h
  cases h
  exact ⟨settings, queues, hsettings, hqueues, rfl, rfl⟩

/-- The defaults of a document are what it says about them over the built-in settings. -/
theorem defaults_of_parts? (h : parts? doc = some (defaults, entries)) :
    ∃ d : Overlay, d.Says (inDefaults doc) ∧ defaults = builtIn.layer d := by
  obtain ⟨settings, -, hsettings, -, rfl, -⟩ := parts?_eq_some h
  cases hdoc : written fieldNames doc "defaults" with
  | none =>
      rw [hdoc] at hsettings
      obtain rfl : none = settings := Option.some.inj hsettings
      have hnothing : inDefaults doc = fun _ => none := by
        funext key
        simp [inDefaults, hdoc]
      exact ⟨{}, hnothing ▸ Overlay.says_nothing, rfl⟩
  | some written =>
      rw [hdoc] at hsettings
      obtain ⟨s, hs, rfl⟩ := Option.map_eq_some_iff.mp hsettings
      obtain ⟨d, hd, rfl⟩ := Option.map_eq_some_iff.mp hs
      have hsays : inDefaults doc = Json.Document.written Overlay.fieldNames written := by
        funext key
        simp [inDefaults, hdoc]
      exact ⟨d, hsays ▸ Overlay.says_of_ofDocument? hd, rfl⟩

theorem whole_of_parts? (h : parts? doc = some (defaults, entries)) : defaults.Whole := by
  obtain ⟨d, hd, rfl⟩ := defaults_of_parts? h
  exact hd.whole_layer whole_builtIn

theorem nodup_of_parts? (h : parts? doc = some (defaults, entries)) :
    (entries.map Prod.fst).Nodup := by
  obtain ⟨-, queues, -, -, -, rfl⟩ := parts?_eq_some h
  exact nodup_keys_toList _

/-- A document has the registry with its defaults and entries. -/
theorem ofDocument?_eq_some {r : Registry} : ofDocument? doc = some r ↔
    ∃ defaults entries, parts? doc = some (defaults, entries) ∧ FilledFrom defaults entries r := by
  rw [ofDocument?_eq]
  constructor
  · intro h
    obtain ⟨⟨defaults, entries⟩, hparts, h⟩ := Option.bind_eq_some_iff.mp h
    exact ⟨defaults, entries, hparts,
      (foldlM_fill_iff (whole_of_parts? hparts) (nodup_of_parts? hparts)).mp h⟩
  · rintro ⟨defaults, entries, hparts, h⟩
    rw [hparts, Option.bind_some]
    exact (foldlM_fill_iff (whole_of_parts? hparts) (nodup_of_parts? hparts)).mpr h

/-- The entry of a queue has what the document gives for this queue. -/
theorem entry_of_parts? (h : parts? doc = some (defaults, entries)) (q : String) :
    (q ∉ entries.map Prod.fst ∧ inEntry doc q = fun _ => none) ∨
      ∃ members, (q, members) ∈ entries ∧ inEntry doc q = fun key => last? key members := by
  obtain ⟨-, queues, -, hqueues, -, rfl⟩ := parts?_eq_some h
  cases hdoc : written fieldNames doc "queues" with
  | none =>
      rw [hdoc] at hqueues
      obtain rfl : none = queues := Option.some.inj hqueues
      refine Or.inl ⟨by simp [lastEntries], ?_⟩
      funext key
      simp [inEntry, hdoc]
  | some written =>
      rw [hdoc] at hqueues
      obtain ⟨entries, hentries, rfl⟩ := Option.map_eq_some_iff.mp hqueues
      obtain ⟨members, hmembers, rfl⟩ := entries?_eq_some hentries
      have hlookup : (lastEntries (members.map fun m => (m.1, m.2.members?.getD [])))[q]? =
          (last? q members).map fun entry => entry.members?.getD [] := by
        rw [getElem?_lastEntries_map fun entry : Document => entry.members?.getD [],
          getElem?_lastEntries]
        rfl
      cases hlast : last? q members with
      | none =>
          rw [hlast] at hlookup
          refine Or.inl ⟨?_, ?_⟩
          · rw [Option.getD_some, mem_keys_toList, hlookup]
            simp
          · funext key
            simp [inEntry, hdoc, member?, hmembers, hlast]
      | some entry =>
          rw [hlast] at hlookup
          refine Or.inr ⟨entry.members?.getD [], ?_, ?_⟩
          · exact Std.ExtTreeMap.mem_toList_iff_getElem?_eq_some.mpr hlookup
          · funext key
            have hentry : member? q written = some entry := by rw [member?, hmembers, ← hlast]; rfl
            rw [← Json.Document.member?_eq]
            simp [inEntry, hdoc, hentry]

/-- What a queue gets from a document. -/
theorem forQueue_ofDocument? {r : Registry} (h : ofDocument? doc = some r)
    (q : String) :
    ∃ e d : Overlay, e.Says (inEntry doc q) ∧ d.Says (inDefaults doc) ∧
      r.forQueue q = e.resolve d q := by
  obtain ⟨defaults, entries, hparts, hfilled⟩ := ofDocument?_eq_some.mp h
  obtain ⟨d, hd, hdefaults⟩ := defaults_of_parts? hparts
  rcases entry_of_parts? hparts q with ⟨hq, hentry⟩ | ⟨members, hmem, hentry⟩
  · refine ⟨{}, d, hentry ▸ Overlay.says_nothing, hd, ?_⟩
    rw [forQueue_eq, hfilled.others q hq, hfilled.defaults_eq, hdefaults]
    rfl
  · obtain ⟨e, he, hlisted⟩ := hfilled.listed (q, members) hmem
    refine ⟨e, d, hentry ▸ Overlay.says_of_ofMembers? he, hd, ?_⟩
    rw [forQueue_eq, hlisted, Option.getD_some, hdefaults, Overlay.entry_eq_resolve]

end Reading

section Known

/-- What is known of the value of a field of a registry document. -/
def knownIn (field : String) (doc : Document) : Document :=
  if field = "queues" then mapMembers (keep Overlay.fieldNames) doc else keep Overlay.fieldNames doc

/-- A registry document without members of other names, in it, in its defaults and in its
entries. -/
def known : Document → Document
  | .obj members =>
    .obj ((members.filter fun m => m.1.any (· ∈ fieldNames)).map fun m =>
      (m.1, knownIn (m.1.getD "") m.2))
  | .arr items => .arr (List.zipWith knownIn fieldNames items)
  | doc => doc

open Json.Document in
theorem fields?_known {doc : Document} {fields : List (Option Document)}
    (h : doc.fields? .open fieldNames = some fields) :
    (known doc).fields? .open fieldNames =
      some (List.zipWith (fun name => Option.map (knownIn name)) fieldNames fields) := by
  cases doc with
  | arr items =>
      match items, h with
      | [], h => obtain rfl := Option.some.inj h; rfl
      | [_], h => obtain rfl := Option.some.inj h; rfl
      | [_, _], h => obtain rfl := Option.some.inj h; rfl
      | _ :: _ :: _ :: _, h => simp [Json.Document.fields?, fieldNames] at h
  | obj members =>
      obtain ⟨ms, hms, h⟩ := Option.bind_eq_some_iff.mp h
      simp only [fieldNames, List.mapM_cons, List.mapM_nil, bind, Option.bind_eq_some_iff, pure,
        Option.some.injEq] at h
      obtain ⟨defaults, hdefaults, -, ⟨queues, hqueues, -, rfl, rfl⟩, rfl⟩ := h
      have hknown : known (obj members) = obj (((ms.filter fun m => m.1 ∈ fieldNames).map fun m =>
          (m.1, knownIn m.1 m.2)).map fun m => (some m.1, m.2)) := by
        rw [members?_eq_some.mp hms, known, List.filter_map, List.map_map, List.map_map]
        rfl
      have honce (name : String) (hname : name ∈ fieldNames) :
          once? name ((ms.filter fun m => m.1 ∈ fieldNames).map fun m => (m.1, knownIn m.1 m.2)) =
            (once? name ms).map (Option.map (knownIn name)) := by
        rw [once?_map, once?_filter hname]
      rw [hknown]
      simp only [fields?, members?_obj, Option.bind_some]
      rw [mapM_congr honce]
      simp only [fieldNames, List.mapM_cons, List.mapM_nil, hdefaults, hqueues]
      rfl
  | null => cases h
  | bool b => cases h
  | num n => cases h
  | str s => cases h

def knownMembers (members : List (String × Document)) : List (String × Document) :=
  members.filter fun m => m.1 ∈ Overlay.fieldNames

theorem ofMembers?_knownMembers (members : List (String × Document)) :
    Overlay.ofMembers? (knownMembers members) = Overlay.ofMembers? members := by
  have hfields : (Overlay.fieldNames.map fun n => last? n (knownMembers members)) =
      Overlay.fieldNames.map fun n => last? n members :=
    List.map_congr_left fun name hname => Json.Document.last?_filter hname members
  rw [Overlay.ofMembers?, Overlay.ofMembers?, hfields]

theorem settings_keep {doc : Document} {s : Settings} (h : Settings.ofDocument? doc = some s) :
    Settings.ofDocument? (keep Overlay.fieldNames doc) = some s := by
  obtain ⟨o, ho, rfl⟩ := Option.map_eq_some_iff.mp h
  obtain ⟨fields, hfields, ho⟩ := Option.bind_eq_some_iff.mp ho
  rw [Settings.ofDocument?, Overlay.ofDocument?, Json.Document.fields?_keep hfields,
    Option.bind_some, ho, Option.map_some]

theorem entryMembers?_keep {doc : Document} {members : List (String × Document)}
    (h : entryMembers? doc = some members) :
    entryMembers? (keep Overlay.fieldNames doc) = some (knownMembers members) := by
  rw [entryMembers?] at h
  split at h
  · rename_i hsound
    rw [entryMembers?, if_pos (Json.Document.sound_keep hsound),
      Json.Document.members?_eq_some.mp h, Json.Document.keep_obj, Json.Document.members?_obj]
    rfl
  · cases h

theorem entries?_known {doc : Document} {entries : Entries}
    (h : entries? doc = some entries) :
    entries? (mapMembers (keep Overlay.fieldNames) doc) =
      some (entries.map fun e => (e.1, knownMembers e.2)) := by
  obtain ⟨members, hmembers, h⟩ := Option.bind_eq_some_iff.mp h
  have hdoc : mapMembers (keep Overlay.fieldNames) doc =
      .obj ((members.map fun m => (m.1, keep Overlay.fieldNames m.2)).map fun m =>
        (some m.1, m.2)) := by
    rw [Json.Document.members?_eq_some.mp hmembers, mapMembers, List.map_map, List.map_map]
    rfl
  rw [entries?, hdoc, Json.Document.members?_obj]
  refine Json.Document.mapM_map_eq_some (fun m e he => ?_) h
  obtain ⟨fields, hfields, rfl⟩ := Option.map_eq_some_iff.mp he
  rw [entryMembers?_keep hfields]
  rfl

theorem parts?_known {doc : Document} {defaults : Settings} {entries : Entries}
    (h : parts? doc = some (defaults, entries)) :
    ∃ queues, entries = (lastEntries queues).toList ∧
      parts? (known doc) = some (defaults,
        (lastEntries (queues.map fun e => (e.1, knownMembers e.2))).toList) := by
  obtain ⟨fields, hfields, h⟩ := Option.bind_eq_some_iff.mp h
  rw [Json.Document.fields?_eq_some (by decide) hfields] at h hfields
  obtain ⟨settings, hsettings, h⟩ := Option.bind_eq_some_iff.mp h
  obtain ⟨queues, hqueues, h⟩ := Option.bind_eq_some_iff.mp h
  cases h
  refine ⟨queues.getD [], rfl, ?_⟩
  have hknownSettings := Json.Document.optional_map (g := knownIn "defaults") (h := id)
    (fun d s hs => settings_keep hs) hsettings
  have hknownQueues :=
    Json.Document.optional_map (g := knownIn "queues") (fun d e he => entries?_known he) hqueues
  have hfieldsKnown := fields?_known hfields
  have hqueuesKnown : ((queues.map (List.map fun e => (e.1, knownMembers e.2))).getD []) =
      (queues.getD []).map fun e => (e.1, knownMembers e.2) := by
    cases queues <;> rfl
  simp only [Option.map_id, id] at hknownSettings
  rw [parts?, hfieldsKnown]
  simp only [bind, Option.bind_some, fieldNames, List.map_cons, List.map_nil,
    List.zipWith_cons_cons, List.zipWith_nil_left] at hknownSettings hknownQueues ⊢
  rw [hknownSettings, hknownQueues, Option.bind_some, Option.bind_some, hqueuesKnown]
  rfl

/-- Taking the unknown members out of a document leaves its registry as it is. -/
theorem ofDocument?_known {doc : Document} {r : Registry} (h : ofDocument? doc = some r) :
    ofDocument? (known doc) = some r := by
  obtain ⟨defaults, entries, hparts, hfilled⟩ := ofDocument?_eq_some.mp h
  obtain ⟨queues, rfl, hknown⟩ := parts?_known hparts
  refine ofDocument?_eq_some.mpr ⟨_, _, hknown, hfilled.defaults_eq, fun e he => ?_,
    fun q hq => hfilled.others q fun hmem => hq ?_⟩
  · rw [Std.ExtTreeMap.mem_toList_iff_getElem?_eq_some, getElem?_lastEntries_map knownMembers] at he
    obtain ⟨members, hmembers, hmem⟩ := Option.map_eq_some_iff.mp he
    rw [← hmem, ofMembers?_knownMembers]
    exact hfilled.listed (e.1, members)
      (Std.ExtTreeMap.mem_toList_iff_getElem?_eq_some.mpr hmembers)
  · obtain ⟨members, hmembers⟩ := mem_keys_toList.mp hmem
    rw [mem_keys_toList, getElem?_lastEntries_map knownMembers, hmembers]
    exact ⟨_, rfl⟩

end Known

section Texts

/-- A registry document that is accepted. Field by field, a queue gets what its entry gives, or else
what the defaults give, or else the built-in value, and its name is that of its entry unless this is
empty or `default`. The entries may be filled in in any order; and without members of other names
the document has the same registry. -/
theorem parse_layers {text : String} {r : Registry} (h : parse text = some r) :
    ∃ doc defaults entries, Document.parse text = some doc ∧ parts? doc = some (defaults, entries) ∧
      (∀ q, ∃ e d : Overlay, e.Says (inEntry doc q) ∧ d.Says (inDefaults doc) ∧
        r.forQueue q = e.resolve d q) ∧
      (∀ order : Entries, order.Perm entries → order.foldlM fill { defaults } = some r) ∧
      ofDocument? (known doc) = some r := by
  obtain ⟨doc, hdoc, hr⟩ := Option.bind_eq_some_iff.mp h
  obtain ⟨defaults, entries, hparts, hfilled⟩ := ofDocument?_eq_some.mp hr
  refine ⟨doc, defaults, entries, hdoc, hparts, forQueue_ofDocument? hr, fun order horder => ?_,
    ofDocument?_known hr⟩
  have hkeys := horder.map Prod.fst
  have hnodup := hkeys.nodup_iff.mpr (nodup_of_parts? hparts)
  exact (foldlM_fill_iff (whole_of_parts? hparts) hnodup).mpr
    ⟨hfilled.defaults_eq, fun e he => hfilled.listed e (horder.mem_iff.mp he),
      fun q hq => hfilled.others q fun hmem => hq (hkeys.mem_iff.mpr hmem)⟩

/-- A text with defaults, an entry that has a member of another name, and an entry with a name. -/
def mailText : String :=
  (Json.obj [
    ("defaults", .obj [("length", .nat 50), ("workers", .nat 2)]),
    ("queues", .obj [
      ("mail", .obj [("workers", .nat 3), ("color", .str "red"), ("name", .str "default")]),
      ("sms", .obj [("name", .str "texts")])])]).render

theorem parse_layers_mail :
    ∃ r doc, parse mailText = some r ∧ Document.parse mailText = some doc ∧
      (∀ q, ∃ e d : Overlay, e.Says (inEntry doc q) ∧ d.Says (inDefaults doc) ∧
        r.forQueue q = e.resolve d q) ∧ ofDocument? (known doc) = some r := by
  obtain ⟨r, hr⟩ := Option.isSome_iff_exists.mp (by decide +kernel : (parse mailText).isSome = true)
  obtain ⟨doc, -, -, hdoc, -, hqueues, -, hknown⟩ := parse_layers hr
  exact ⟨r, doc, hr, hdoc, hqueues, hknown⟩

example : (parse mailText).map (fun r => [r.forQueue "mail", r.forQueue "sms", r.forQueue "push"]) =
    some [{ name := "mail", length := 50, workers := 3 },
      { name := "texts", length := 50, workers := 2 },
      { name := "push", length := 50, workers := 2 }] := by
  decide +kernel

end Texts

end Settings.Registry

end Coordination
