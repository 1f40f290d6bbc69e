import Coordination.Proofs.Settings.Spelling

/-!
The two front ends agree. Values for the defaults and for some queues can be spelled as variables,
with the queues listed in any order, and as a document, with the members of each object in any
order; both give the same registry, as long as no variable name stands for two fields. Both fill in
each queue over the defaults, and neither notices what is said about the others.
-/

namespace Coordination

namespace Settings

/-- An entry that gives no name has the name of its key. -/
theorem Registry.entry_unnamed {defaults : Settings} {key : String} {o : Overlay}
    (h : o.name = none) :
    entry defaults key o = ({ defaults with name := key } : Settings).layer o := by
  simp only [entry, layer, h, Option.getD_none, nameFor_key]

/-- Values for the defaults and for queues by their names. -/
structure Assignment where
  defaults : Values := {}
  queues : List (String × Values) := []
  deriving DecidableEq, Repr

namespace Assignment

def names (a : Assignment) : List String := a.queues.map Prod.fst

def Listable (a : Assignment) : Prop := ∀ name ∈ a.names, Text.Listable name

def addresses (a : Assignment) : List String := "DEFAULT" :: a.names.map Text.uppercase

/-- No variable name stands for two fields. -/
def VariablesDistinct (a : Assignment) : Prop :=
  (a.addresses.flatMap fun address =>
    Overlay.variableFields.map (Overlay.variableName address)).Nodup

instance (a : Assignment) : Decidable a.VariablesDistinct :=
  inferInstanceAs (Decidable (List.Nodup _))

/-- The variables that spell the assignment, with the queues listed in this order. -/
def texts (a : Assignment) (order : List String) : List (String × Option String) :=
  (Registry.namesVariable, some (",".intercalate order)) ::
    (a.defaults.texts "DEFAULT" ++ a.queues.flatMap fun q => q.2.texts (Text.uppercase q.1))

def environment (a : Assignment) (order : List String) : Environment :=
  .ofList (present (a.texts order))

/-- A document with these defaults and entries, its two members in some order. -/
def DocumentOf (defaults : Spelled) (entries : List (String × Spelled)) (doc : Json) : Prop :=
  ∃ order : List (String × Json),
    order.Perm
        [("defaults", defaults.json), ("queues", .obj (entries.map fun e => (e.1, e.2.json)))] ∧
      doc = .obj order

/-- A document that spells the assignment. Each queue has an entry, which may be empty. -/
def WrittenAs (a : Assignment) (doc : Json) : Prop :=
  ∃ defaults entries, defaults.values = a.defaults ∧
    (entries.map fun e => (e.1, e.2.values)).Perm a.queues ∧ DocumentOf defaults entries doc

section Variables

variable {a : Assignment} {order : List String}

theorem keys_texts (a : Assignment) (order : List String) :
    (a.texts order).map Prod.fst = Registry.namesVariable ::
      a.addresses.flatMap fun address =>
        Overlay.variableFields.map (Overlay.variableName address) := by
  have hkeys (v : Values) (address : String) : (v.texts address).map Prod.fst =
      Overlay.variableFields.map (Overlay.variableName address) := rfl
  rw [texts, List.map_cons, List.map_append, List.map_flatMap, hkeys, addresses, List.flatMap_cons,
    names, List.map_map, List.flatMap_map]
  rfl

theorem names_nodup (h : a.VariablesDistinct) : a.names.Nodup := by
  have hdisjoint := (List.nodup_flatMap.mp h).2
  have haddresses : a.addresses.Nodup := by
    refine hdisjoint.imp fun {b c} hbc heq => ?_
    have hmem : Overlay.variableName b "TYPE" ∈
        Overlay.variableFields.map (Overlay.variableName b) := List.mem_cons_self
    exact hbc hmem (heq ▸ hmem)
  exact (List.nodup_cons.mp haddresses).2.of_map Text.uppercase

theorem environment_eq (h : a.VariablesDistinct) :
    ∀ e ∈ a.texts order, a.environment order e.1 = e.2 := by
  have hnodup : ((a.texts order).map Prod.fst).Nodup := by
    rw [keys_texts, List.nodup_cons]
    refine ⟨fun hmem => ?_, h⟩
    obtain ⟨address, -, hmem⟩ := List.mem_flatMap.mp hmem
    obtain ⟨field, -, hname⟩ := List.mem_map.mp hmem
    exact Overlay.variableName_ne_names _ _ hname
  exact fun e he => lookup_present hnodup he

theorem listed_environment (h : a.VariablesDistinct) (hnames : a.Listable)
    (horder : order.Perm a.names) : Registry.listed (a.environment order) = order := by
  have hvariable : a.environment order Registry.namesVariable = some (",".intercalate order) :=
    environment_eq h _ List.mem_cons_self
  rw [Registry.listed, hvariable, Option.getD_some]
  exact Text.names_intercalate fun name hname => hnames name (horder.mem_iff.mp hname)

theorem overlay_defaults (h : a.VariablesDistinct) :
    Overlay.ofEnvironment (a.environment order) "DEFAULT" = .ok a.defaults.overlay :=
  Values.ofEnvironment_spelled fun e he =>
    environment_eq h e (List.mem_cons_of_mem _ (List.mem_append_left _ he))

theorem overlay_queue (h : a.VariablesDistinct) {q : String × Values} (hq : q ∈ a.queues) :
    Overlay.ofEnvironment (a.environment order) (Text.uppercase q.1) = .ok q.2.overlay :=
  Values.ofEnvironment_spelled fun e he =>
    environment_eq h e (List.mem_cons_of_mem _ (List.mem_append_right _
      (List.mem_flatMap.mpr ⟨q, hq, he⟩)))

end Variables

section Documents

open Json.Document (ofJson)

theorem parts?_ofJson {defaults : Spelled} {entries : List (String × Spelled)} {doc : Json}
    (h : DocumentOf defaults entries doc) :
    Registry.parts? (ofJson doc) = some (builtIn.layer defaults.values.overlay,
      (Registry.lastEntries (entries.map fun e => (e.1, e.2.read))).toList) := by
  obtain ⟨order, horder, rfl⟩ := h
  have hnodup : ((([("defaults", defaults.json),
      ("queues", .obj (entries.map fun e => (e.1, e.2.json)))] :
        List (String × Json))).map Prod.fst).Nodup := by simp
  have hentries : Registry.entries? (ofJson (.obj (entries.map fun e => (e.1, e.2.json)))) =
      some (entries.map fun e => (e.1, e.2.read)) := by
    have hread := Registry.entries?_ofJson (entries.map fun e => (e.1, e.2.members)) (by
      intro e he
      obtain ⟨q, -, rfl⟩ := List.mem_map.mp he
      exact fun m => Spelled.simple)
    rw [List.map_map, List.map_map] at hread
    exact hread
  have hfields : (ofJson (.obj order)).fields? .open Registry.fieldNames =
      some [some (ofJson defaults.json),
        some (ofJson (.obj (entries.map fun e => (e.1, e.2.json))))] := by
    rw [Json.Document.fields?_order horder hnodup]
    simp only [Json.Document.lookup_order horder hnodup]
    rfl
  rw [Registry.parts?, hfields]
  simp only [bind, Option.bind_some, Json.Document.optional, defaults.ofDocument?_json, hentries]
  rfl

end Documents

section Agreement

open Registry (FilledFrom forQueue_ofEnvironment getElem?_ofEnvironment lastEntries
  mem_toList_lastEntries)

variable {a : Assignment} {order : List String} {r : Registry}

/-- A registry that is loaded from the variables has what the entries of the document give. -/
theorem filledFrom_environment (h : a.VariablesDistinct) (hnames : a.Listable)
    (horder : order.Perm a.names) (hr : Registry.ofEnvironment (a.environment order) = .ok r)
    {entries : List (String × Spelled)}
    (hentries : (entries.map fun e => (e.1, e.2.values)).Perm a.queues) :
    FilledFrom (builtIn.layer a.defaults.overlay)
      (lastEntries (entries.map fun e => (e.1, e.2.read))).toList r := by
  obtain ⟨d, hd, -, hdefaults, -, hqueues⟩ := forQueue_ofEnvironment hr
  obtain rfl := Except.ok.inj ((overlay_defaults h).symm.trans hd)
  have hlisted : Registry.listed (a.environment order) = order := listed_environment h hnames horder
  have hkeys : (entries.map Prod.fst).Perm order := by
    have hnamesPerm := hentries.map Prod.fst
    rw [List.map_map] at hnamesPerm
    exact hnamesPerm.trans horder.symm
  have hnodup : ((entries.map fun e => (e.1, e.2.read)).map Prod.fst).Nodup := by
    rw [List.map_map]
    exact hkeys.nodup_iff.mpr (horder.nodup_iff.mpr (names_nodup h))
  refine ⟨hdefaults, fun e he => ?_, fun q hq => ?_⟩
  · obtain ⟨⟨name, s⟩, hmem, rfl⟩ := List.mem_map.mp ((mem_toList_lastEntries hnodup).mp he)
    have hname : name ∈ Registry.listed (a.environment order) := by
      rw [hlisted]
      exact hkeys.mem_iff.mp (List.mem_map_of_mem hmem)
    have hqueue : (name, s.values) ∈ a.queues :=
      hentries.mem_iff.mp (List.mem_map_of_mem (f := fun e => (e.1, e.2.values)) hmem)
    obtain ⟨o, ho, hforQueue⟩ := hqueues name hname
    obtain rfl := Except.ok.inj ((overlay_queue h hqueue).symm.trans ho)
    refine ⟨s.values.overlay, s.ofMembers?_read, ?_⟩
    rw [getElem?_ofEnvironment hr, if_pos hname, hforQueue]
    exact congrArg some (Registry.entry_unnamed rfl).symm
  · have hout : q ∉ Registry.listed (a.environment order) := by
      rw [hlisted]
      intro hmem
      obtain ⟨e, he, rfl⟩ := List.mem_map.mp (hkeys.mem_iff.mpr hmem)
      have hentry := (mem_toList_lastEntries hnodup).mpr
        (List.mem_map_of_mem (f := fun e => (e.1, e.2.read)) he)
      exact hq (List.mem_map_of_mem (f := Prod.fst) hentry)
    rw [getElem?_ofEnvironment hr, if_neg hout]

/-- Variables and documents that spell the same values give the same registry. -/
theorem front_ends_agree (hnames : a.Listable) (h : a.VariablesDistinct)
    (horder : order.Perm a.names) {doc : Json} (hdoc : a.WrittenAs doc) :
    ∃ r, Registry.ofEnvironment (a.environment order) = .ok r ∧
      Registry.parse doc.render = some r := by
  have hlisted : Registry.listed (a.environment order) = order := listed_environment h hnames horder
  have hloads : ∀ name ∈ Registry.listed (a.environment order), ∃ o,
      Overlay.ofEnvironment (a.environment order) (Text.uppercase name) = .ok o := by
    intro name hname
    obtain ⟨q, hq, rfl⟩ := List.mem_map.mp (horder.mem_iff.mp (hlisted ▸ hname))
    exact ⟨q.2.overlay, overlay_queue h hq⟩
  obtain ⟨r, hr⟩ := Registry.ofEnvironment_ok (overlay_defaults h) hloads
  obtain ⟨defaults, entries, hdefaults, hentries, hwritten⟩ := hdoc
  refine ⟨r, hr, ?_⟩
  rw [Registry.parse, Json.Document.parse_render, Option.bind_some, Registry.ofDocument?_eq_some]
  refine ⟨_, _, parts?_ofJson hwritten, ?_⟩
  rw [hdefaults]
  exact filledFrom_environment h hnames horder hr hentries

/-- Defaults without a limit, and two queues, one of them with values of its own. -/
def mailAssignment : Assignment where
  defaults := { length := some 50, maxWorkers := some (-1) }
  queues := [("mail", { workers := some 3, blockMillis := some 250 }), ("sms", {})]

/-- A document for these values, the queues first. -/
def mailDocument : Json :=
  .obj [
    ("queues", .obj [
      ("sms", .obj []),
      ("mail", .obj [("block_timeout", .nat 250), ("workers", .nat 3)])]),
    ("defaults", .obj [("length", .nat 50), ("max_workers", .int (-1))])]

theorem front_ends_agree_mail :
    mailAssignment.Listable ∧ mailAssignment.VariablesDistinct ∧
      List.Perm ["sms", "mail"] mailAssignment.names ∧ mailAssignment.WrittenAs mailDocument ∧
      ∃ r, Registry.ofEnvironment (mailAssignment.environment ["sms", "mail"]) = .ok r ∧
        Registry.parse mailDocument.render = some r := by
  have hlistable : mailAssignment.Listable := by
    intro name hname
    obtain rfl | rfl : name = "mail" ∨ name = "sms" := by
      simpa [mailAssignment, names] using hname
    · exact ⟨by decide, by decide, by decide⟩
    · exact ⟨by decide, by decide, by decide⟩
  have hdistinct : mailAssignment.VariablesDistinct := by decide +kernel
  have horder : List.Perm ["sms", "mail"] mailAssignment.names := .swap "mail" "sms" []
  have hwritten : mailAssignment.WrittenAs mailDocument := by
    refine ⟨⟨mailAssignment.defaults, _, .refl _⟩,
      [("sms", ⟨{}, _, .refl _⟩),
        ("mail", ⟨{ workers := some 3, blockMillis := some 250 }, _, .swap _ _ []⟩)],
      rfl, .swap _ _ [], _, .swap _ _ [], rfl⟩
  exact ⟨hlistable, hdistinct, horder, hwritten,
    front_ends_agree hlistable hdistinct horder hwritten⟩

example :
    (Registry.parse mailDocument.render).map (fun r => [r.forQueue "mail", r.forQueue "sms"]) =
    some [
      { name := "mail", length := 50, maxWorkers := -1, workers := 3,
        blockTimeout := Duration.ofMillis 250 },
      { name := "sms", length := 50, maxWorkers := -1 }] := by
  decide +kernel

end Agreement

end Assignment

end Settings

end Coordination
