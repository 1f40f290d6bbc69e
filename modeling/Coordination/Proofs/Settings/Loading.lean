import Coordination.Settings.Registry

/-!
Registries that are loaded from variables. What a queue gets depends on the variables that are
addressed to it and on those of the defaults, and on no other: listing it again reads the same
variables again, and listing other queues leaves it alone.
-/

namespace Coordination

theorem bind_eq_ok {ε α β : Type} {x : Except ε α} {f : α → Except ε β} {b : β} :
    x >>= f = .ok b ↔ ∃ a, x = .ok a ∧ f a = .ok b := by
  cases x with
  | error e => simp [bind, Except.bind]
  | ok a => simp [bind, Except.bind]

namespace Settings

/-- An overlay says all it has to say at once. -/
theorem layer_layer (s : Settings) (o : Overlay) : (s.layer o).layer o = s.layer o := by
  have hget {α : Type} (x : Option α) (a : α) : x.getD (x.getD a) = x.getD a := by
    cases x <;> rfl
  simp only [layer, hget]

end Settings

namespace Overlay

def variableFields : List String :=
  ["TYPE", "LENGTH", "BATCH_LENGTH", "BOOST_WORKERS", "MAX_WORKERS", "WORKERS", "BLOCK_TIMEOUT_MS",
    "BOOST_TIMEOUT_MS"]

/-- The variable is one of those of the queues that are addressed as `address`. -/
def Reads (address key : String) : Prop :=
  ∃ field ∈ variableFields, key = variableName address field

section Reading

variable {env env' : Environment} {address : String}

/-- An overlay that was read has the value of the variable of each field. -/
theorem ofEnvironment_eq_ok {o : Overlay} (h : ofEnvironment env address = .ok o) :
    o.kind = env (variableName address "TYPE") ∧ o.name = none ∧
    env.word (variableName address "LENGTH") = .ok o.length ∧
    env.word (variableName address "BATCH_LENGTH") = .ok o.batchLength ∧
    env.word (variableName address "BOOST_WORKERS") = .ok o.boostWorkers ∧
    env.signedWord (variableName address "MAX_WORKERS") = .ok o.maxWorkers ∧
    env.word (variableName address "WORKERS") = .ok o.workers ∧
    env.millis (variableName address "BLOCK_TIMEOUT_MS") = .ok o.blockTimeout ∧
    env.millis (variableName address "BOOST_TIMEOUT_MS") = .ok o.boostTimeout := by
  simp only [ofEnvironment, bind_eq_ok, pure, Except.pure, Except.ok.injEq] at h
  obtain ⟨length, hlength, batch, hbatch, boostWorkers, hboostWorkers, maxWorkers, hmaxWorkers,
    workers, hworkers, block, hblock, boost, hboost, rfl⟩ := h
  exact ⟨rfl, rfl, hlength, hbatch, hboostWorkers, hmaxWorkers, hworkers, hblock, hboost⟩

theorem ofEnvironment_congr (h : ∀ key, Reads address key → env' key = env key) :
    ofEnvironment env' address = ofEnvironment env address := by
  have hkey (field : String) (hfield : field ∈ variableFields) :
      env' (variableName address field) = env (variableName address field) :=
        h _ ⟨field, hfield, rfl⟩
  have hparsed {α : Type} (read : List Char → Option α) (field : String)
      (hfield : field ∈ variableFields) :
      env'.parsed read (variableName address field) =
        env.parsed read (variableName address field) := by
    rw [Environment.parsed, Environment.parsed, hkey field hfield]
  have hword := hparsed fun cs => (Text.natural? cs).bind Text.word?
  have hsigned := hparsed fun cs => (Text.integer? cs).bind Text.signedWord?
  have hmillis := hparsed fun cs =>
    ((Text.natural? cs).bind Text.word?).map fun n => Duration.ofMillis n.toNat
  simp only [ofEnvironment, Environment.word, Environment.signedWord, Environment.millis]
  rw [hkey "TYPE" (by decide), hword "LENGTH" (by decide), hword "BATCH_LENGTH" (by decide),
    hword "BOOST_WORKERS" (by decide), hsigned "MAX_WORKERS" (by decide),
    hword "WORKERS" (by decide), hmillis "BLOCK_TIMEOUT_MS" (by decide),
    hmillis "BOOST_TIMEOUT_MS" (by decide)]

end Reading

end Overlay

namespace Settings.Registry

def listed (env : Environment) : List String := Text.names ((env namesVariable).getD "")

/-- Every entry has the name that it is listed under. -/
def Named (r : Registry) : Prop :=
  ∀ (key : String) (s : Settings), r.queues[key]? = some s → s.name = key

theorem named_empty (defaults : Settings) : Named { defaults } := by
  intro key s h
  simp at h

theorem forQueue_eq (r : Registry) (q : String) :
    r.forQueue q = (r.queues[q]?).getD { r.defaults with name := q } := by
  unfold forQueue
  split
  · rename_i s hs
    rw [hs]
    rfl
  · rename_i hnone
    rw [hnone]
    rfl

theorem Named.forQueue {r : Registry} (h : Named r) (q : String) : (r.forQueue q).name = q := by
  rw [forQueue_eq]
  cases hq : r.queues[q]? with
  | none => rfl
  | some s => exact h q s hq

theorem getElem?_insert_key (m : Std.ExtTreeMap String Settings) (key q : String) (s : Settings) :
    (m.insert key s)[q]? = if key = q then some s else m[q]? := by
  simp only [Std.ExtTreeMap.getElem?_insert, Std.LawfulEqCmp.compare_eq_iff_eq]

theorem getElem?_insert (r : Registry) (s : Settings) (q : String) :
    (r.insert s).queues[q]? = if s.name = q then some s else r.queues[q]? :=
  getElem?_insert_key _ _ _ _

theorem forQueue_insert (r : Registry) (s : Settings) (q : String) :
    (r.insert s).forQueue q = if s.name = q then s else r.forQueue q := by
  rw [forQueue_eq, forQueue_eq, getElem?_insert]
  split <;> rfl

theorem Named.insert {r : Registry} (h : Named r) (s : Settings) : Named (r.insert s) := by
  intro key t ht
  rw [getElem?_insert] at ht
  split at ht
  · rename_i hkey
    rw [← Option.some.inj ht, hkey]
  · exact h key t ht

section Loads

variable {env : Environment} {r r' : Registry}

theorem load_eq_ok {name : String} (h : load env r name = .ok r') :
    ∃ o, Overlay.ofEnvironment env (Text.uppercase name) = .ok o ∧
      r' = r.insert ((r.forQueue name).layer o) := by
  obtain ⟨o, ho, h⟩ := bind_eq_ok.mp h
  exact ⟨o, ho, (Except.ok.inj h).symm⟩

theorem Named.layer_name (h : Named r) {q : String} {address : String} {o : Overlay}
    (ho : Overlay.ofEnvironment env address = .ok o) : ((r.forQueue q).layer o).name = q := by
  simp only [layer, (Overlay.ofEnvironment_eq_ok ho).2.1, Option.getD_none, h.forQueue]

/-- Loading one queue changes what this queue gets and nothing else. -/
theorem forQueue_load (hnamed : Named r) {name : String} (h : load env r name = .ok r') :
    Named r' ∧ r'.defaults = r.defaults ∧
      ∃ o, Overlay.ofEnvironment env (Text.uppercase name) = .ok o ∧
        ∀ q, r'.forQueue q = if name = q then (r.forQueue q).layer o else r.forQueue q := by
  obtain ⟨o, ho, rfl⟩ := load_eq_ok h
  refine ⟨hnamed.insert _, rfl, o, ho, fun q => ?_⟩
  rw [forQueue_insert, hnamed.layer_name ho]
  split
  · rename_i hq
    rw [hq]
  · rfl

/-- Loading a list of queues puts the variables of each over what it had, however often it is
listed and in whatever order. -/
theorem forQueue_foldlM_load {names : List String} (hnamed : Named r)
    (h : names.foldlM (load env) r = .ok r') :
    Named r' ∧ r'.defaults = r.defaults ∧ (∀ q ∉ names, r'.forQueue q = r.forQueue q) ∧
      ∀ q ∈ names, ∃ o, Overlay.ofEnvironment env (Text.uppercase q) = .ok o ∧
        r'.forQueue q = (r.forQueue q).layer o := by
  induction names generalizing r with
  | nil =>
      obtain rfl : r = r' := Except.ok.inj h
      exact ⟨hnamed, rfl, fun _ _ => rfl, by simp⟩
  | cons name names ih =>
      rw [List.foldlM_cons] at h
      obtain ⟨s, hs, hrest⟩ := bind_eq_ok.mp h
      obtain ⟨hsnamed, hsdefaults, o, ho, hforQueue⟩ := forQueue_load hnamed hs
      obtain ⟨hr'named, hr'defaults, hout, hin⟩ := ih hsnamed hrest
      refine ⟨hr'named, hr'defaults.trans hsdefaults, fun q hq => ?_, fun q hq => ?_⟩
      · obtain ⟨hne, hnotin⟩ := List.ne_and_not_mem_of_not_mem_cons hq
        rw [hout q hnotin, hforQueue, if_neg hne.symm]
      · by_cases hlater : q ∈ names
        · obtain ⟨o', ho', hq'⟩ := hin q hlater
          refine ⟨o', ho', ?_⟩
          rw [hq', hforQueue]
          split
          · rename_i hname
            -- The same variables are read again, and say the same.
            rw [hname] at ho
            obtain rfl : o = o' := Except.ok.inj (ho.symm.trans ho')
            exact layer_layer _ _
          · rfl
        · obtain rfl : q = name := (List.mem_cons.mp hq).resolve_right hlater
          exact ⟨o, ho, by rw [hout q hlater, hforQueue, if_pos rfl]⟩

/-- The queues that are loaded have entries, and no other queue gets one. -/
theorem isSome_foldlM_load {names : List String} (hnamed : Named r)
    (h : names.foldlM (load env) r = .ok r') (q : String) :
    (r'.queues[q]?).isSome ↔ q ∈ names ∨ (r.queues[q]?).isSome := by
  induction names generalizing r with
  | nil =>
      obtain rfl : r = r' := Except.ok.inj h
      simp
  | cons name names ih =>
      rw [List.foldlM_cons] at h
      obtain ⟨s, hs, hrest⟩ := bind_eq_ok.mp h
      obtain ⟨hsnamed, -⟩ := forQueue_load hnamed hs
      obtain ⟨o, ho, rfl⟩ := load_eq_ok hs
      have hinsert : ((r.insert ((r.forQueue name).layer o)).queues[q]?).isSome ↔
          q = name ∨ (r.queues[q]?).isSome := by
        rw [getElem?_insert, hnamed.layer_name ho]
        by_cases hq : name = q
        · simp [hq]
        · simp [hq, Ne.symm hq]
      rw [ih hsnamed hrest, hinsert, List.mem_cons, or_left_comm, or_assoc]

end Loads

section Environments

variable {env env' : Environment} {r r' : Registry}

/-- What the queues of a loaded registry get. -/
theorem forQueue_ofEnvironment (h : ofEnvironment env = .ok r) :
    ∃ d, Overlay.ofEnvironment env "DEFAULT" = .ok d ∧ Named r ∧ r.defaults = builtIn.layer d ∧
      (∀ q ∉ listed env, r.forQueue q = { builtIn.layer d with name := q }) ∧
      ∀ q ∈ listed env, ∃ o, Overlay.ofEnvironment env (Text.uppercase q) = .ok o ∧
        r.forQueue q = ({ builtIn.layer d with name := q } : Settings).layer o := by
  obtain ⟨d, hd, h⟩ := bind_eq_ok.mp h
  have hempty (q : String) : Registry.forQueue { defaults := builtIn.layer d } q =
      { builtIn.layer d with name := q } := by simp [forQueue_eq]
  obtain ⟨hnamed, hdefaults, hout, hin⟩ := forQueue_foldlM_load (named_empty _) h
  simp only [hempty] at hout hin
  exact ⟨d, hd, hnamed, hdefaults, hout, hin⟩

/-- The listed queues have entries, and no other. -/
theorem getElem?_ofEnvironment (h : ofEnvironment env = .ok r) (q : String) :
    r.queues[q]? = if q ∈ listed env then some (r.forQueue q) else none := by
  obtain ⟨d, -, h⟩ := bind_eq_ok.mp h
  have hfold : (listed env).foldlM (load env) { defaults := builtIn.layer d } = .ok r := h
  have hsome : (r.queues[q]?).isSome ↔ q ∈ listed env := by
    simpa using isSome_foldlM_load (named_empty _) hfold q
  rw [forQueue_eq]
  cases hq : r.queues[q]? with
  | none =>
      have hnot : q ∉ listed env := by simp [← hsome, hq]
      rw [if_neg hnot]
  | some s =>
      have hlisted : q ∈ listed env := by simp [← hsome, hq]
      rw [if_pos hlisted, Option.getD_some]

/-- A registry can be loaded if the variables of the defaults and of every listed queue can. -/
theorem ofEnvironment_ok {d : Overlay} (hdefault : Overlay.ofEnvironment env "DEFAULT" = .ok d)
    (hlisted : ∀ q ∈ listed env, ∃ o, Overlay.ofEnvironment env (Text.uppercase q) = .ok o) :
    ∃ r, ofEnvironment env = .ok r := by
  have hfold (names : List String) (s : Registry)
      (hnames : ∀ q ∈ names, ∃ o, Overlay.ofEnvironment env (Text.uppercase q) = .ok o) :
      ∃ r, names.foldlM (load env) s = .ok r := by
    induction names generalizing s with
    | nil => exact ⟨s, rfl⟩
    | cons name names ih =>
        obtain ⟨o, ho⟩ := hnames name List.mem_cons_self
        obtain ⟨r, hr⟩ := ih (s.insert ((s.forQueue name).layer o))
          fun q hq => hnames q (List.mem_cons_of_mem _ hq)
        have hload : load env s name = .ok (s.insert ((s.forQueue name).layer o)) :=
          bind_eq_ok.mpr ⟨o, ho, rfl⟩
        refine ⟨r, ?_⟩
        rw [List.foldlM_cons]
        exact bind_eq_ok.mpr ⟨_, hload, hr⟩
  obtain ⟨r, hr⟩ := hfold (listed env) { defaults := builtIn.layer d } hlisted
  exact ⟨r, bind_eq_ok.mpr ⟨d, hdefault, hr⟩⟩

/-- A queue does not notice a change of variables that are neither its own nor those of the
defaults. -/
theorem forQueue_congr {q : String} (h : ofEnvironment env = .ok r)
    (h' : ofEnvironment env' = .ok r') (hnames : env' namesVariable = env namesVariable)
    (hown : ∀ key, Overlay.Reads (Text.uppercase q) key → env' key = env key)
    (hdefault : ∀ key, Overlay.Reads "DEFAULT" key → env' key = env key) :
    r'.forQueue q = r.forQueue q := by
  obtain ⟨d, hd, -, -, hout, hin⟩ := forQueue_ofEnvironment h
  obtain ⟨d', hd', -, -, hout', hin'⟩ := forQueue_ofEnvironment h'
  have hlisted : listed env' = listed env := by rw [listed, listed, hnames]
  rw [Overlay.ofEnvironment_congr hdefault] at hd'
  obtain rfl : d = d' := Except.ok.inj (hd.symm.trans hd')
  by_cases hq : q ∈ listed env
  · obtain ⟨o, ho, hforQueue⟩ := hin q hq
    obtain ⟨o', ho', hforQueue'⟩ := hin' q (hlisted ▸ hq)
    rw [Overlay.ofEnvironment_congr hown] at ho'
    obtain rfl : o = o' := Except.ok.inj (ho.symm.trans ho')
    rw [hforQueue, hforQueue']
  · rw [hout q hq, hout' q (hlisted ▸ hq)]

end Environments

end Settings.Registry

end Coordination
