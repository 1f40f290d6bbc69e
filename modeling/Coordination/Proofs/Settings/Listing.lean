import Coordination.Proofs.Settings.Filling
import Coordination.Proofs.Settings.Variables

/-!
What the list of queues means. Of the names in the list only the set counts: a queue that is listed
again reads the same variables again and puts them over settings that have them already, and the
entries of a registry have no order. A queue that is listed without variables of its own gets an
entry with the settings that it would have anyway.
-/

namespace Coordination

namespace Overlay

/-- Where no variable is set for a queue, its overlay sets nothing. -/
theorem ofEnvironment_unset {env : Environment} {address : String}
    (h : ∀ field ∈ variableFields, env (variableName address field) = none) :
    ofEnvironment env address = .ok {} := by
  have hsame : ofEnvironment env address = ofEnvironment .empty address := by
    refine ofEnvironment_congr ?_
    rintro key ⟨field, hfield, rfl⟩
    exact h field hfield
  exact hsame.trans rfl

/-- The list of queues is no variable of a queue. -/
theorem ofEnvironment_set_names (env : Environment) (names : Option String) (address : String) :
    ofEnvironment (env.set Settings.Registry.namesVariable names) address =
      ofEnvironment env address := by
  refine ofEnvironment_congr ?_
  rintro key ⟨field, -, rfl⟩
  exact if_neg (variableName_ne_names address field)

end Overlay

namespace Settings

theorem layer_empty (s : Settings) : s.layer {} = s := rfl

namespace Registry

open Overlay (variableFields variableName)

/-- Two loads come out alike: both fail, or both give a registry, and these are related. -/
inductive Alike (related : Registry → Registry → Prop) :
    Except SettingsError Registry → Except SettingsError Registry → Prop where
  | fails (e e' : SettingsError) : Alike related (.error e) (.error e')
  | loads {r r' : Registry} (h : related r r') : Alike related (.ok r) (.ok r')

theorem alike_of {related : Registry → Registry → Prop} {x y : Except SettingsError Registry}
    (hiff : (∃ r, x = .ok r) ↔ ∃ r, y = .ok r)
    (hrelated : ∀ r r', x = .ok r → y = .ok r' → related r r') : Alike related x y := by
  cases x with
  | error e =>
      cases y with
      | error e' => exact Alike.fails e e'
      | ok r' =>
          obtain ⟨r, hr⟩ := hiff.mpr ⟨r', rfl⟩
          cases hr
  | ok r =>
      obtain ⟨r', rfl⟩ := hiff.mp ⟨r, rfl⟩
      exact Alike.loads (hrelated r r' rfl rfl)

section Names

variable {env : Environment} {names names' : Option String}

/-- A registry loads exactly where the variables of the defaults and of every listed queue do. -/
theorem exists_ofEnvironment_iff (env : Environment) :
    (∃ r, ofEnvironment env = .ok r) ↔
      (∃ d, Overlay.ofEnvironment env "DEFAULT" = .ok d) ∧
        ∀ q ∈ listed env, ∃ o, Overlay.ofEnvironment env (Text.uppercase q) = .ok o := by
  constructor
  · rintro ⟨r, hr⟩
    obtain ⟨d, hd, -, -, -, hlisted⟩ := forQueue_ofEnvironment hr
    refine ⟨⟨d, hd⟩, fun q hq => ?_⟩
    obtain ⟨o, ho, -⟩ := hlisted q hq
    exact ⟨o, ho⟩
  · rintro ⟨⟨d, hd⟩, hlisted⟩
    exact ofEnvironment_ok hd hlisted

theorem listed_set_names (env : Environment) (names : Option String) :
    listed (env.set namesVariable names) = Text.names (names.getD "") := by
  simp [listed, Environment.set]

/-- The names in the list, whatever else is set. -/
theorem exists_ofEnvironment_set_iff (env : Environment) (names : Option String) :
    (∃ r, ofEnvironment (env.set namesVariable names) = .ok r) ↔
      (∃ d, Overlay.ofEnvironment env "DEFAULT" = .ok d) ∧
        ∀ q ∈ Text.names (names.getD ""),
          ∃ o, Overlay.ofEnvironment env (Text.uppercase q) = .ok o := by
  simp only [exists_ofEnvironment_iff, listed_set_names, Overlay.ofEnvironment_set_names]

/-- What a queue gets, by whether it is listed. -/
theorem forQueue_ofEnvironment_set {r : Registry}
    (h : ofEnvironment (env.set namesVariable names) = .ok r) :
    ∃ d, Overlay.ofEnvironment env "DEFAULT" = .ok d ∧ r.defaults = builtIn.layer d ∧
      (∀ q ∉ Text.names (names.getD ""), r.forQueue q = { builtIn.layer d with name := q }) ∧
      ∀ q ∈ Text.names (names.getD ""), ∃ o,
        Overlay.ofEnvironment env (Text.uppercase q) = .ok o ∧
          r.forQueue q = ({ builtIn.layer d with name := q } : Settings).layer o := by
  obtain ⟨d, hd, -, hdefaults, hout, hin⟩ := forQueue_ofEnvironment h
  simp only [listed_set_names, Overlay.ofEnvironment_set_names] at hd hout hin
  exact ⟨d, hd, hdefaults, hout, hin⟩

/-- A queue that is listed in both loads, or in neither, gets the same from both. -/
theorem forQueue_eq_of_listed {r r' : Registry}
    (h : ofEnvironment (env.set namesVariable names) = .ok r)
    (h' : ofEnvironment (env.set namesVariable names') = .ok r') {q : String}
    (hq : q ∈ Text.names (names.getD "") ↔ q ∈ Text.names (names'.getD "")) :
    r.defaults = r'.defaults ∧ r.forQueue q = r'.forQueue q := by
  obtain ⟨d, hd, hdefaults, hout, hin⟩ := forQueue_ofEnvironment_set h
  obtain ⟨d', hd', hdefaults', hout', hin'⟩ := forQueue_ofEnvironment_set h'
  obtain rfl : d = d' := Except.ok.inj (hd.symm.trans hd')
  refine ⟨hdefaults.trans hdefaults'.symm, ?_⟩
  by_cases hlisted : q ∈ Text.names (names.getD "")
  · obtain ⟨o, ho, hforQueue⟩ := hin q hlisted
    obtain ⟨o', ho', hforQueue'⟩ := hin' q (hq.mp hlisted)
    obtain rfl : o = o' := Except.ok.inj (ho.symm.trans ho')
    rw [hforQueue, hforQueue']
  · rw [hout q hlisted, hout' q (mt hq.mpr hlisted)]

/-- Lists of the same names load the same registry. -/
theorem eq_of_same_names {r r' : Registry}
    (h : ofEnvironment (env.set namesVariable names) = .ok r)
    (h' : ofEnvironment (env.set namesVariable names') = .ok r')
    (same : ∀ q, q ∈ Text.names (names.getD "") ↔ q ∈ Text.names (names'.getD "")) : r = r' := by
  refine ext_lookup (forQueue_eq_of_listed h h' (same "")).1 fun q => ?_
  rw [getElem?_ofEnvironment h, getElem?_ofEnvironment h', listed_set_names, listed_set_names,
    (forQueue_eq_of_listed h h' (same q)).2]
  exact if_congr (same q) rfl rfl

/-- Without variables of its own a queue gets the same whether it is listed or not. -/
theorem forQueue_eq_of_unset {r r' : Registry}
    (h : ofEnvironment (env.set namesVariable names) = .ok r)
    (h' : ofEnvironment (env.set namesVariable names') = .ok r') {q : String}
    (hlisted : q ∈ Text.names (names.getD "")) (hunlisted : q ∉ Text.names (names'.getD ""))
    (unset : ∀ field ∈ variableFields, env (variableName (Text.uppercase q) field) = none) :
    r.forQueue q = r'.forQueue q := by
  obtain ⟨d, hd, -, -, hin⟩ := forQueue_ofEnvironment_set h
  obtain ⟨d', hd', -, hout', -⟩ := forQueue_ofEnvironment_set h'
  obtain rfl : d = d' := Except.ok.inj (hd.symm.trans hd')
  obtain ⟨o, ho, hforQueue⟩ := hin q hlisted
  obtain rfl : {} = o := Except.ok.inj ((Overlay.ofEnvironment_unset unset).symm.trans ho)
  rw [hforQueue, hout' q hunlisted, layer_empty]

/-- The order and the repetition of listed queues do not matter. Two lists of the same names, in any
order, with any repetitions, further commas or blanks, load both or neither; and where they load
they give the same registry. Taking a queue without variables of its own out of a list changes
neither whether it loads nor what any queue gets, this one included. -/
theorem order_of_names_irrelevant
    (same : ∀ q, q ∈ Text.names (names.getD "") ↔ q ∈ Text.names (names'.getD "")) :
    Alike (· = ·) (ofEnvironment (env.set namesVariable names))
      (ofEnvironment (env.set namesVariable names')) ∧
    ∀ q ∈ Text.names (names.getD ""),
      (∀ field ∈ variableFields, env (variableName (Text.uppercase q) field) = none) →
      ∀ without, (∀ x, x ∈ Text.names (without.getD "") ↔ x ∈ Text.names (names.getD "") ∧ x ≠ q) →
        Alike (fun r r' => ∀ x, r.forQueue x = r'.forQueue x)
          (ofEnvironment (env.set namesVariable names))
          (ofEnvironment (env.set namesVariable without)) := by
  constructor
  · refine alike_of ?_ fun r r' h h' => eq_of_same_names h h' same
    simp only [exists_ofEnvironment_set_iff, same]
  · intro q hq unset without hwithout
    have hunlisted : q ∉ Text.names (without.getD "") := fun hmem => ((hwithout q).mp hmem).2 rfl
    refine alike_of ?_ fun r r' h h' x => ?_
    · rw [exists_ofEnvironment_set_iff, exists_ofEnvironment_set_iff]
      refine and_congr_right fun _ => ⟨fun hall x hx => hall x ((hwithout x).mp hx).1, ?_⟩
      intro hall x hx
      by_cases hxq : x = q
      · exact ⟨{}, Overlay.ofEnvironment_unset (hxq ▸ unset)⟩
      · exact hall x ((hwithout x).mpr ⟨hx, hxq⟩)
    · by_cases hxq : x = q
      · subst hxq
        exact forQueue_eq_of_unset h h' hq hunlisted unset
      · have hx : x ∈ Text.names (names.getD "") ↔ x ∈ Text.names (without.getD "") := by
          rw [hwithout, and_iff_left hxq]
        exact (forQueue_eq_of_listed h h' hx).2

/-- Fifty items for all queues, and three workers for `mail`. -/
def mailVariables : Environment :=
  .ofList [("QUEUE_DEFAULT_LENGTH", "50"), ("QUEUE_MAIL_WORKERS", " 3")]

theorem order_of_names_irrelevant_shuffled :
    Text.names "mail, sms" = ["mail", "sms"] ∧
    Text.names ",sms ,mail,, mail" = ["sms", "mail", "mail"] ∧
      Alike (· = ·) (ofEnvironment (mailVariables.set namesVariable (some "mail, sms")))
        (ofEnvironment (mailVariables.set namesVariable (some ",sms ,mail,, mail"))) ∧
      (∀ field ∈ variableFields, mailVariables (variableName (Text.uppercase "sms") field) = none) ∧
      Alike (fun r r' => ∀ x, r.forQueue x = r'.forQueue x)
        (ofEnvironment (mailVariables.set namesVariable (some "mail, sms")))
        (ofEnvironment (mailVariables.set namesVariable (some "mail"))) := by
  have hnames : Text.names "mail, sms" = ["mail", "sms"] := by decide
  have hshuffled : Text.names ",sms ,mail,, mail" = ["sms", "mail", "mail"] := by decide
  have hshort : Text.names "mail" = ["mail"] := by decide
  have same : ∀ q, q ∈ Text.names "mail, sms" ↔ q ∈ Text.names ",sms ,mail,, mail" := by
    simp [hnames, hshuffled, or_comm]
  have unset : ∀ field ∈ variableFields,
      mailVariables (variableName (Text.uppercase "sms") field) = none := by decide
  obtain ⟨halike, hwithout⟩ :=
    @order_of_names_irrelevant mailVariables (some "mail, sms") (some ",sms ,mail,, mail") same
  refine ⟨hnames, hshuffled, halike, unset, hwithout "sms" ?_ unset (some "mail") fun x => ?_⟩
  · simp [hnames]
  · simp only [Option.getD_some, hnames, hshort, List.mem_cons, List.not_mem_nil, or_false]
    constructor
    · rintro rfl
      exact ⟨Or.inl rfl, by decide⟩
    · rintro ⟨rfl | rfl, hne⟩
      · rfl
      · exact absurd rfl hne

end Names

end Registry

end Settings

end Coordination
