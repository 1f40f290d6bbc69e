import Mathlib.Data.List.DropRight
import Coordination.Proofs.Settings.Loading

/-!
Which queues a variable reaches. The name of a variable joins the address of a queue and a field
with underscores, and both may have underscores of their own. Three fields end in another field:
`BATCH_LENGTH`, `BOOST_WORKERS` and `MAX_WORKERS`. So a variable is addressed to two kinds of queues
exactly when one address is the other with such a beginning behind it; then setting it for one
queue sets a field of another one, or of all. Apart from that a variable reaches the queues it is
addressed to and no other.
-/

namespace Coordination

namespace Overlay

/-- The fields that end in another field: their beginnings, and what those stand in front of. -/
def compounds : List (String × String) :=
  [("BATCH", "LENGTH"), ("BOOST", "WORKERS"), ("MAX", "WORKERS")]

/-- The variable for `field` of the queues addressed as `a` is also one of those addressed as `b`,
because the beginning of a field can be read as the end of an address. -/
def Overlaps (a field b : String) : Prop :=
  ∃ c ∈ compounds,
    field = c.2 ∧ a = b ++ "_" ++ c.1 ∨ field = c.1 ++ "_" ++ c.2 ∧ b = a ++ "_" ++ c.1

instance (a field b : String) : Decidable (Overlaps a field b) :=
  inferInstanceAs (Decidable (∃ c ∈ compounds, _))

/-- What follows the address in the name of a variable. -/
def ending (field : String) : List Char := '_' :: field.toList

theorem variableName_inj {a b f g : String} :
    variableName a f = variableName b g ↔ a.toList ++ ending f = b.toList ++ ending g := by
  rw [← String.toList_inj]
  simp [variableName, ending, String.toList_append]

theorem ending_suffix {f g : String} (hf : f ∈ variableFields) (hg : g ∈ variableFields)
    (h : ending g <:+ ending f) : g = f ∨ ∃ c ∈ compounds, g = c.2 ∧ f = c.1 ++ "_" ++ c.2 := by
  have table : ∀ f ∈ variableFields, ∀ g ∈ variableFields, ending g <:+ ending f →
      g = f ∨ ∃ c ∈ compounds, g = c.2 ∧ f = c.1 ++ "_" ++ c.2 := by decide
  exact table f hf g hg h

/-- The fields whose variables can be those of two kinds of queues. -/
def sharedFields : List String :=
  ["LENGTH", "BATCH_LENGTH", "BOOST_WORKERS", "MAX_WORKERS", "WORKERS"]

theorem variableFields_of_shared : sharedFields ⊆ variableFields := by decide

theorem compound_shared :
    ∀ c ∈ compounds, c.2 ∈ sharedFields ∧ c.1 ++ "_" ++ c.2 ∈ sharedFields := by
  decide

theorem overlaps_shared {a field b : String} (h : Overlaps a field b) :
    ∃ f ∈ sharedFields, variableName a field = variableName b f := by
  obtain ⟨c, hc, ⟨rfl, rfl⟩ | ⟨rfl, rfl⟩⟩ := h
  · refine ⟨c.1 ++ "_" ++ c.2, (compound_shared c hc).2, ?_⟩
    simp [variableName, String.append_assoc]
  · refine ⟨c.2, (compound_shared c hc).1, ?_⟩
    simp [variableName, String.append_assoc]

/-- A variable that is also named by a shorter field has a longer address there. -/
theorem address_of_longer {a b f g : String} (hf : f ∈ variableFields) (hg : g ∈ variableFields)
    (hab : a ≠ b) {rest : List Char} (haddress : b.toList = a.toList ++ rest)
    (hending : ending f = rest ++ ending g) :
    ∃ c ∈ compounds, g = c.2 ∧ f = c.1 ++ "_" ++ c.2 ∧ b = a ++ "_" ++ c.1 := by
  rcases ending_suffix hf hg ⟨rest, hending.symm⟩ with rfl | ⟨c, hc, rfl, rfl⟩
  · have hnil : rest = [] := by simpa using hending
    exact absurd (String.toList_inj.mp (by rw [haddress, hnil, List.append_nil])) hab
  · refine ⟨c, hc, rfl, rfl, ?_⟩
    have hrest : rest = '_' :: c.1.toList := by
      have hboth : rest ++ ending c.2 = '_' :: c.1.toList ++ ending c.2 := by
        rw [← hending]
        simp [ending, String.toList_append]
      exact List.append_cancel_right hboth
    rw [← String.toList_inj, haddress, hrest]
    simp [String.toList_append]

/-- A variable that is addressed to one kind of queues reaches another one exactly where the
beginning of a field can be read as the end of an address. -/
theorem reads_variableName_iff {a b field : String} (hfield : field ∈ variableFields)
    (hab : a ≠ b) :
    Reads b (variableName a field) ↔ Overlaps a field b := by
  constructor
  · rintro ⟨g, hg, heq⟩
    rw [variableName_inj, List.append_eq_append_iff] at heq
    rcases heq with ⟨rest, haddress, hending⟩ | ⟨rest, haddress, hending⟩
    · obtain ⟨c, hc, -, hlong, hb⟩ := address_of_longer hfield hg hab haddress hending
      exact ⟨c, hc, Or.inr ⟨hlong, hb⟩⟩
    · obtain ⟨c, hc, hshort, -, ha⟩ := address_of_longer hg hfield hab.symm haddress hending
      exact ⟨c, hc, Or.inl ⟨hshort, ha⟩⟩
  · intro h
    obtain ⟨f, hf, hkey⟩ := overlaps_shared h
    exact ⟨f, variableFields_of_shared hf, hkey⟩

theorem variableName_ne_names (address field : String) :
    variableName address field ≠ Settings.Registry.namesVariable := by
  intro h
  have hlist : address.toList ++ ending field = "NAMES".toList := by
    have hchars := congrArg String.toList h
    simpa [variableName, Settings.Registry.namesVariable, ending, String.toList_append] using hchars
  have hmem : '_' ∈ address.toList ++ ending field := by simp [ending]
  rw [hlist] at hmem
  revert hmem
  decide

end Overlay

section Names

namespace Text

theorem splitCommas_piece {cs : List Char} (h : ',' ∉ cs) : splitCommas cs = [cs] := by
  induction cs with
  | nil => rfl
  | cons c cs ih =>
      obtain ⟨hc, hcs⟩ := List.ne_and_not_mem_of_not_mem_cons h
      rw [splitCommas, if_neg hc.symm, ih hcs]

theorem comma_notMem_piece {cs piece : List Char} (h : piece ∈ splitCommas cs) : ',' ∉ piece := by
  induction cs generalizing piece with
  | nil =>
      obtain rfl : piece = [] := by simpa [splitCommas] using h
      simp
  | cons c cs ih =>
      rw [splitCommas] at h
      split at h
      · rcases List.mem_cons.mp h with rfl | h
        · simp
        · exact ih h
      · rename_i hc
        split at h
        · rename_i first rest hpieces
          rcases List.mem_cons.mp h with rfl | h
          · exact List.not_mem_cons_of_ne_of_not_mem (Ne.symm hc)
              (ih (hpieces ▸ List.mem_cons_self))
          · exact ih (hpieces ▸ List.mem_cons_of_mem _ h)
        · obtain rfl : piece = [c] := by simpa using h
          simpa using Ne.symm hc

theorem splitCommas_comma {cs rest : List Char} (h : ',' ∉ cs) :
    splitCommas (cs ++ ',' :: rest) = cs :: splitCommas rest := by
  induction cs with
  | nil => rfl
  | cons c cs ih =>
      obtain ⟨hc, hcs⟩ := List.ne_and_not_mem_of_not_mem_cons h
      rw [List.cons_append, splitCommas, if_neg hc.symm, ih hcs]

theorem mem_of_mem_trimChars {cs : List Char} {c : Char} (h : c ∈ trimChars cs) : c ∈ cs :=
  (List.dropWhile_sublist isBlank).mem ((List.rdropWhile_prefix isBlank _).mem h)

theorem trimChars_trimChars (cs : List Char) : trimChars (trimChars cs) = trimChars cs := by
  have hfront : (trimChars cs).dropWhile isBlank = trimChars cs := by
    rw [List.dropWhile_eq_self_iff]
    intro hpos
    -- The first character is the first of what is left when the front is cut off.
    have hstart : trimChars cs <+: cs.dropWhile isBlank := List.rdropWhile_prefix isBlank _
    rw [hstart.getElem hpos]
    exact List.dropWhile_get_zero_not isBlank cs (hpos.trans_le hstart.length_le)
  calc trimChars (trimChars cs)
      = (trimChars cs).rdropWhile isBlank := congrArg (List.rdropWhile isBlank) hfront
    _ = trimChars cs := List.rdropWhile_idempotent isBlank _

/-- A name that can stand in a list of names. -/
structure Listable (name : String) : Prop where
  some_left : name ≠ ""
  trimmed : trim name = name
  no_comma : ',' ∉ name.toList

theorem listable_of_mem_names {name text : String} (h : name ∈ names text) : Listable name := by
  obtain ⟨cs, hcs, hname⟩ := List.mem_filterMap.mp h
  obtain ⟨piece, hpiece, rfl⟩ := List.mem_map.mp hcs
  split at hname
  · cases hname
  · rename_i hsome
    obtain rfl := Option.some.inj hname
    refine ⟨?_, ?_, ?_⟩
    · simpa using hsome
    · simp [trim, trimChars_trimChars]
    · simpa using fun hmem => comma_notMem_piece hpiece (mem_of_mem_trimChars hmem)

theorem Listable.trimChars {name : String} (h : Listable name) :
    trimChars name.toList = name.toList := by
  rw [← String.toList_ofList (l := Text.trimChars name.toList)]
  exact congrArg String.toList h.trimmed

theorem splitCommas_intercalate {pieces : List (List Char)} (hsome : pieces ≠ [])
    (h : ∀ piece ∈ pieces, ',' ∉ piece) : splitCommas ([','].intercalate pieces) = pieces := by
  induction pieces with
  | nil => exact absurd rfl hsome
  | cons piece pieces ih =>
      cases pieces with
      | nil =>
          rw [List.intercalate_singleton]
          exact splitCommas_piece (h piece List.mem_cons_self)
      | cons next rest =>
          have hrest := ih (List.cons_ne_nil next rest) fun p hp => h p (List.mem_cons_of_mem _ hp)
          rw [List.intercalate_cons_cons, List.append_assoc, List.singleton_append,
            splitCommas_comma (h piece List.mem_cons_self), hrest]

/-- Names with commas between them are a list of these names. -/
theorem names_intercalate {order : List String} (h : ∀ name ∈ order, Listable name) :
    names (",".intercalate order) = order := by
  rcases eq_or_ne order [] with rfl | hsome
  · rfl
  · have hpieces : splitCommas (",".intercalate order).toList = order.map String.toList := by
      rw [String.toList_intercalate]
      refine splitCommas_intercalate (by simpa using hsome) fun piece hpiece => ?_
      obtain ⟨name, hname, rfl⟩ := List.mem_map.mp hpiece
      exact (h name hname).no_comma
    have htrim : (order.map String.toList).map Text.trimChars = order.map String.toList := by
      rw [List.map_map]
      exact List.map_congr_left fun name hname => (h name hname).trimChars
    have hkeep : ∀ name ∈ order,
        (if name.toList.isEmpty then none else some (String.ofList name.toList)) = some name := by
      intro name hname
      simp [(h name hname).some_left]
    rw [names, hpieces, htrim, List.filterMap_map]
    exact (List.filterMap_congr hkeep).trans List.filterMap_some

theorem names_pair {a b : String} (ha : Listable a) (hb : Listable b) :
    names (a ++ "," ++ b) = [a, b] := by
  have hnames : names (",".intercalate [a, b]) = [a, b] := names_intercalate (by simp [ha, hb])
  rwa [String.intercalate_cons_cons, String.intercalate_singleton] at hnames

end Text

end Names

namespace Environment

def set (env : Environment) (key : String) (value : Option String) : Environment :=
  fun k => if k = key then value else env k

section Sevens

variable {env : Environment} {key : String}

theorem word_seven (h : env key = none ∨ env key = some "7") :
    env.word key = .ok ((env key).map fun _ => 7) := by
  rcases h with h | h <;> rw [word, parsed, h] <;> rfl

theorem signedWord_seven (h : env key = none ∨ env key = some "7") :
    env.signedWord key = .ok ((env key).map fun _ => 7) := by
  rcases h with h | h <;> rw [signedWord, parsed, h] <;> rfl

theorem millis_seven (h : env key = none ∨ env key = some "7") :
    env.millis key = .ok ((env key).map fun _ => Duration.ofMillis 7) := by
  rcases h with h | h <;> rw [millis, parsed, h] <;> rfl

end Sevens

end Environment

namespace Settings.Registry

open Overlay (Overlaps Reads overlaps_shared sharedFields variableFields variableName)

section Sevens

/-- Every variable of the environment that is there for a queue is seven. -/
def Sevens (env : Environment) : Prop :=
  ∀ address field, env (variableName address field) = none ∨
    env (variableName address field) = some "7"

/-- The overlay of such variables. -/
def sevens (env : Environment) (address : String) : Overlay where
  kind := env (variableName address "TYPE")
  length := (env (variableName address "LENGTH")).map fun _ => 7
  batchLength := (env (variableName address "BATCH_LENGTH")).map fun _ => 7
  boostWorkers := (env (variableName address "BOOST_WORKERS")).map fun _ => 7
  maxWorkers := (env (variableName address "MAX_WORKERS")).map fun _ => 7
  workers := (env (variableName address "WORKERS")).map fun _ => 7
  blockTimeout := (env (variableName address "BLOCK_TIMEOUT_MS")).map fun _ => Duration.ofMillis 7
  boostTimeout := (env (variableName address "BOOST_TIMEOUT_MS")).map fun _ => Duration.ofMillis 7

theorem Sevens.overlay {env : Environment} (h : Sevens env) (address : String) :
    Overlay.ofEnvironment env address = .ok (sevens env address) := by
  simp only [Overlay.ofEnvironment, Environment.word_seven (h _ _),
    Environment.signedWord_seven (h _ _), Environment.millis_seven (h _ _)]
  rfl

theorem Sevens.loads {env : Environment} (h : Sevens env) {q : String} (hq : q ∈ listed env) :
    ∃ r, ofEnvironment env = .ok r ∧
      r.forQueue q = ({ builtIn.layer (sevens env "DEFAULT") with name := q } : Settings).layer
        (sevens env (Text.uppercase q)) := by
  obtain ⟨r, hr⟩ := ofEnvironment_ok (h.overlay "DEFAULT") fun q _ => ⟨_, h.overlay _⟩
  obtain ⟨d, hd, -, -, -, hin⟩ := forQueue_ofEnvironment hr
  obtain ⟨o, ho, hforQueue⟩ := hin q hq
  obtain rfl := Except.ok.inj ((h.overlay _).symm.trans hd)
  obtain rfl := Except.ok.inj ((h.overlay _).symm.trans ho)
  exact ⟨r, hr, hforQueue⟩

/-- The environment that lists two queues and sets nothing else. -/
def pairEnvironment (a b : String) : Environment := .ofList [(namesVariable, a ++ "," ++ b)]

theorem pairEnvironment_variable (a b address field : String) :
    pairEnvironment a b (variableName address field) = none := by
  have hne := Overlay.variableName_ne_names address field
  simp [pairEnvironment, Environment.ofList, List.lookup_cons, beq_eq_false_iff_ne.mpr hne]

theorem pairEnvironment_listed {a b : String} (ha : Text.Listable a) (hb : Text.Listable b) :
    listed (pairEnvironment a b) = [a, b] := by
  simp [listed, pairEnvironment, Environment.ofList, Text.names_pair ha hb]

theorem listed_set (env : Environment) (address field : String) (value : Option String) :
    listed (env.set (variableName address field) value) = listed env := by
  have hne := (Overlay.variableName_ne_names address field).symm
  simp [listed, Environment.set, hne]

end Sevens

/-- A shared field is seven as soon as one of its two variables is, and had its built-in value
before one of them was there. -/
theorem layer_sevens_ne {env env' : Environment} {own f q : String} (hf : f ∈ sharedFields)
    (hown : env (variableName own f) = none) (hdefault : env (variableName "DEFAULT" f) = none)
    (hset : env' (variableName own f) = some "7" ∨ env' (variableName "DEFAULT" f) = some "7") :
    ({ builtIn.layer (sevens env' "DEFAULT") with name := q } : Settings).layer (sevens env' own) ≠
      ({ builtIn.layer (sevens env "DEFAULT") with name := q } : Settings).layer
        (sevens env own) := by
  have hdiff {β : Type} {n m : β} (hnm : n ≠ m) :
      ((env' (variableName own f)).map fun _ => n).getD
          (((env' (variableName "DEFAULT" f)).map fun _ => n).getD m) ≠
        ((env (variableName own f)).map fun _ => n).getD
          (((env (variableName "DEFAULT" f)).map fun _ => n).getD m) := by
    rw [hown, hdefault]
    rcases hset with hset | hset
    · rw [hset]
      exact hnm
    · rw [hset]
      cases env' (variableName own f) <;> exact hnm
  intro heq
  simp only [sharedFields, List.mem_cons, List.not_mem_nil, or_false] at hf
  rcases hf with rfl | rfl | rfl | rfl | rfl
  · exact hdiff (by decide) (congrArg Settings.length heq)
  · exact hdiff (by decide) (congrArg Settings.batchLength heq)
  · exact hdiff (by decide) (congrArg Settings.boostWorkers heq)
  · exact hdiff (by decide) (congrArg Settings.maxWorkers heq)
  · exact hdiff (by decide) (congrArg Settings.workers heq)

/-- Where a variable overlaps, setting it changes what the other queue gets. -/
theorem overlap_changes {a b field target : String} (ha : Text.Listable a) (hb : Text.Listable b)
    (htarget : target = Text.uppercase b ∨ target = "DEFAULT")
    (h : Overlaps (Text.uppercase a) field target) :
    ∃ r r', ofEnvironment (pairEnvironment a b) = .ok r ∧
      ofEnvironment ((pairEnvironment a b).set (variableName (Text.uppercase a) field) (some "7")) =
        .ok r' ∧
      r'.forQueue b ≠ r.forQueue b := by
  obtain ⟨f, hf, hkey⟩ := overlaps_shared h
  have hnone := pairEnvironment_variable a b
  have hlisted : b ∈ listed (pairEnvironment a b) := by simp [pairEnvironment_listed ha hb]
  have hlisted' := hlisted
  rw [← listed_set _ (Text.uppercase a) field (some "7")] at hlisted'
  have hset : ((pairEnvironment a b).set (variableName (Text.uppercase a) field) (some "7"))
      (variableName target f) = some "7" := if_pos hkey.symm
  have hsevens : Sevens (pairEnvironment a b) := fun address g => Or.inl (hnone address g)
  have hsevens' : Sevens ((pairEnvironment a b).set (variableName (Text.uppercase a) field)
      (some "7")) := by
    intro address g
    by_cases hg : variableName address g = variableName (Text.uppercase a) field
    · exact Or.inr (if_pos hg)
    · exact Or.inl ((if_neg hg).trans (hnone address g))
  -- Sevens can be read for every field, so both environments load, whatever the field is.
  obtain ⟨r, hr, hforQueue⟩ := hsevens.loads hlisted
  obtain ⟨r', hr', hforQueue'⟩ := hsevens'.loads hlisted'
  refine ⟨r, r', hr, hr', ?_⟩
  rw [hforQueue, hforQueue']
  refine layer_sevens_ne hf (hnone _ f) (hnone _ f) ?_
  rcases htarget with rfl | rfl
  · exact Or.inl hset
  · exact Or.inr hset

/-- When a variable of one queue leaves another queue alone. For queues that can be listed, whose
addresses are different from each other and the first also from that of the defaults: adding,
changing or removing a variable of the first leaves what the second gets as it is, in every
environment that lists both and in which both loads succeed, exactly when the variable is neither
one of the second nor one of the defaults, because the beginning of a field can be read as the end
of an address. -/
theorem other_queue_unchanged_iff {base : Environment} {a b field : String} (ha : a ∈ listed base)
    (hb : b ∈ listed base) (hab : Text.uppercase a ≠ Text.uppercase b)
    (hdefault : Text.uppercase a ≠ "DEFAULT") (hfield : field ∈ variableFields) :
    (∀ env value r r', a ∈ listed env → b ∈ listed env → ofEnvironment env = .ok r →
      ofEnvironment (env.set (variableName (Text.uppercase a) field) value) = .ok r' →
      r'.forQueue b = r.forQueue b) ↔
    ¬ Overlaps (Text.uppercase a) field (Text.uppercase b) ∧
      ¬ Overlaps (Text.uppercase a) field "DEFAULT" := by
  have ha : Text.Listable a := Text.listable_of_mem_names ha
  have hb : Text.Listable b := Text.listable_of_mem_names hb
  constructor
  · intro hsame
    have hnone (target : String) (htarget : target = Text.uppercase b ∨ target = "DEFAULT") :
        ¬ Overlaps (Text.uppercase a) field target := by
      intro hoverlap
      obtain ⟨r, r', hr, hr', hne⟩ := overlap_changes ha hb htarget hoverlap
      refine hne (hsame _ _ r r' ?_ ?_ hr hr') <;> simp [pairEnvironment_listed ha hb]
    exact ⟨hnone _ (Or.inl rfl), hnone _ (Or.inr rfl)⟩
  · rintro ⟨hother, hdefaults⟩ env value r r' - - hr hr'
    have hkeep (address key : String) (hne : Text.uppercase a ≠ address)
        (hout : ¬ Overlaps (Text.uppercase a) field address) (hkey : Reads address key) :
        env.set (variableName (Text.uppercase a) field) value key = env key := by
      refine if_neg ?_
      rintro rfl
      exact hout ((Overlay.reads_variableName_iff hfield hne).mp hkey)
    have hnames : env.set (variableName (Text.uppercase a) field) value namesVariable =
        env namesVariable := if_neg (Overlay.variableName_ne_names _ _).symm
    exact forQueue_congr hr hr' hnames (fun key => hkeep _ key hab hother)
      (fun key => hkeep _ key hdefault hdefaults)

/-- The number of workers of `x_batch` is no business of `x`, whatever else is set. -/
theorem other_queue_unchanged_iff_workers :
    "x_batch" ∈ listed (pairEnvironment "x" "x_batch") ∧
    "x" ∈ listed (pairEnvironment "x" "x_batch") ∧
      Text.uppercase "x_batch" ≠ Text.uppercase "x" ∧ Text.uppercase "x_batch" ≠ "DEFAULT" ∧
      "WORKERS" ∈ variableFields ∧
      ∀ env value r r', "x_batch" ∈ listed env → "x" ∈ listed env → ofEnvironment env = .ok r →
        ofEnvironment (env.set (variableName (Text.uppercase "x_batch") "WORKERS") value) = .ok r' →
        r'.forQueue "x" = r.forQueue "x" := by
  have hbatch : "x_batch" ∈ listed (pairEnvironment "x" "x_batch") := by decide
  have hx : "x" ∈ listed (pairEnvironment "x" "x_batch") := by decide
  have hab : Text.uppercase "x_batch" ≠ Text.uppercase "x" := by decide
  have hdefault : Text.uppercase "x_batch" ≠ "DEFAULT" := by decide
  have hfield : "WORKERS" ∈ variableFields := by decide
  exact ⟨hbatch, hx, hab, hdefault, hfield,
    (other_queue_unchanged_iff hbatch hx hab hdefault hfield).mpr (by decide)⟩

set_option maxRecDepth 4000 in
/-- The length of the buffer of `x_batch` is also the batch length of `x`: with `x` and `x_batch`
listed, `QUEUE_X_BATCH_LENGTH` changes both. -/
theorem variable_reaches_other_queue :
    ¬ ∀ env (a b field : String) value r r', a ∈ listed env → b ∈ listed env →
      Text.uppercase a ≠ Text.uppercase b → Text.uppercase a ≠ "DEFAULT" →
      Text.uppercase b ≠ "DEFAULT" → field ∈ variableFields → ofEnvironment env = .ok r →
      ofEnvironment (env.set (variableName (Text.uppercase a) field) value) = .ok r' →
      r'.forQueue b = r.forQueue b := by
  intro hsame
  have hsame := hsame (pairEnvironment "x" "x_batch") "x_batch" "x" "LENGTH" (some "7") _ _
    (by decide) (by decide) (by decide) (by decide) (by decide) (by decide) rfl rfl
  exact absurd hsame (by decide)

end Settings.Registry

end Coordination
