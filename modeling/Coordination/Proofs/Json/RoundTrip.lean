import Mathlib.Data.List.Basic
import Coordination.Proofs.Json.Numbers

/-!
What is written is read back. The tokens of a written value are found again by the lexer, whatever
it had found before and whatever mark follows; and these tokens make a reader, whatever containers
are open around it, have read the value. So a text that was written from a value is the document of
this value.
-/

namespace Coordination.Json

mutual
def tokens : Json → List Token
  | .null => [.null]
  | .bool b => [.bool b]
  | .int n => [.num (Number.ofInt n)]
  | .str s => [.str (some s)]
  | .arr items => .openArray :: (itemTokens items ++ [.closeArray])
  | .obj members => .openObject :: (memberTokens members ++ [.closeObject])

def itemTokens : List Json → List Token
  | [] => []
  | [v] => v.tokens
  | v :: w :: r => v.tokens ++ .comma :: itemTokens (w :: r)

def memberTokens : List (String × Json) → List Token
  | [] => []
  | [(k, v)] => .str (some k) :: .colon :: v.tokens
  | (k, v) :: m :: r => .str (some k) :: .colon :: (v.tokens ++ .comma :: memberTokens (m :: r))
end

section Lexing

namespace Lexer

/-- The characters have these tokens, wherever between tokens they stand. -/
def Finds (cs : List Char) (ts : List Token) : Prop :=
  ∀ before, (cs.foldlM step ⟨before, .between⟩).bind finish = some (before.reverse ++ ts)

/-- A character that cannot be part of a bare word ends the one before it, if there is one. -/
theorem step_of_finish {l : Lexer} {ts : List Token} {c : Char} (h : l.finish = some ts.reverse)
    (hc : Token.isBare c = false) : l.step c = between ts c := by
  obtain ⟨before, mode⟩ := l
  cases mode with
  | between =>
      obtain rfl : before = ts := by simpa [finish] using h
      rfl
  | bare chars =>
      simp only [finish, Option.map_eq_some_iff] at h
      obtain ⟨t, ht, hts⟩ := h
      obtain rfl : t :: before = ts := List.reverse_inj.mp hts
      simp [step, hc, ht]
  | text units => cases h
  | escape units => cases h
  | hex units value missing => cases h

theorem Finds.nil : Finds [] [] := fun before => by simp [finish]

/-- A mark between two texts is the mark between their tokens. -/
theorem Finds.mark {cs rest : List Char} {ts us : List Token} {c : Char} {t : Token}
    (hcs : Finds cs ts) (hc : Token.isBare c = false)
    (ht : ∀ before, between before c = some ⟨t :: before, .between⟩) (hrest : Finds rest us) :
    Finds (cs ++ c :: rest) (ts ++ t :: us) := by
  intro before
  obtain ⟨l, hl, hfinish⟩ := Option.bind_eq_some_iff.mp (hcs before)
  have hfound : l.finish = some (before.reverse ++ ts).reverse.reverse := by
    rw [hfinish, List.reverse_reverse]
  have hstep : l.step c = some ⟨t :: (before.reverse ++ ts).reverse, .between⟩ := by
    rw [step_of_finish hfound hc, ht]
  rw [List.foldlM_append, hl]
  simp only [bind, Option.bind_some, List.foldlM_cons, hstep]
  simpa using hrest (t :: (before.reverse ++ ts).reverse)

end Lexer

open Lexer (Finds)

theorem hexValue?_hexDigit : ∀ d < 16, Token.hexValue? (hexDigit d) = some d := by decide

/-- One written character of a string is one code unit. -/
theorem foldlM_escape (before : List Token) (units : List Nat) (c : Char) :
    (escape c).foldlM Lexer.step ⟨before, .text units⟩ =
      some ⟨before, .text (c.toNat :: units)⟩ := by
  unfold escape
  split_ifs with hquote hback hline hreturn htab hbs hff hlow
  · subst hquote
    rfl
  · subst hback
    rfl
  · subst hline
    rfl
  · subst hreturn
    rfl
  · subst htab
    rfl
  · subst hbs
    rfl
  · subst hff
    rfl
  · have hhigh := hexValue?_hexDigit (c.toNat / 16) (by omega)
    have hrest := hexValue?_hexDigit (c.toNat % 16) (by omega)
    have hzero : Token.hexValue? '0' = some 0 := by decide
    have hunit : 16 * (c.toNat / 16) + c.toNat % 16 = c.toNat := by omega
    simp [List.foldlM_cons, Lexer.step, hhigh, hrest, hzero, hunit]
  · simp [List.foldlM_cons, Lexer.step, hquote, hback, hlow]

theorem foldlM_escapeAll (before : List Token) (units : List Nat) (cs : List Char) :
    (escapeAll cs).foldlM Lexer.step ⟨before, .text units⟩ =
      some ⟨before, .text ((cs.map Char.toNat).reverse ++ units)⟩ := by
  induction cs generalizing units with
  | nil => rfl
  | cons c cs ih =>
      rw [escapeAll, List.foldlM_append, foldlM_escape]
      simp [ih]

/-- A character is not half of a surrogate pair. -/
theorem not_half (c : Char) : Token.isHigh c.toNat = false ∧ Token.isLow c.toNat = false := by
  have hvalid : c.toNat < 0xD800 ∨ 0xDFFF < c.toNat ∧ c.toNat < 0x110000 := c.valid
  simp only [Token.isHigh, Token.isLow, decide_eq_false_iff_not]
  omega

/-- The code units of characters stand for these characters. -/
theorem text?_toNat (cs : List Char) : Token.text? (cs.map Char.toNat) = some cs := by
  induction cs with
  | nil => rfl
  | cons c cs ih =>
      obtain ⟨hhigh, hlow⟩ := not_half c
      cases cs with
      | nil => simp [Token.text?, hhigh, hlow, Char.ofNat_toNat]
      | cons d cs =>
          rw [List.map_cons] at ih
          simp [Token.text?, hhigh, hlow, ih, Char.ofNat_toNat]

theorem finds_quote (s : String) : Finds (quote s) [.str (some s)] := by
  intro before
  have hclose : Lexer.closeText (s.toList.map Char.toNat).reverse = .str (some s) := by
    rw [Lexer.closeText, List.reverse_reverse, text?_toNat, Option.map_some, String.ofList_toList]
  rw [quote, List.foldlM_cons]
  simp [Lexer.step, Lexer.between, Token.isBlank, foldlM_escapeAll, hclose, Lexer.finish]

theorem finds_bare {cs : List Char} {t : Token} (hne : cs ≠ []) (hall : cs.all Token.isBare)
    (ht : Token.ofBare cs = some t) : Finds cs [t] := by
  have hcs : ∀ c ∈ cs, Token.isBare c := List.all_eq_true.mp hall
  have hfold (before : List Token) (taken rest : List Char) (hrest : ∀ c ∈ rest, Token.isBare c) :
      rest.foldlM Lexer.step ⟨before, .bare taken⟩ =
        some ⟨before, .bare (rest.reverse ++ taken)⟩ := by
    induction rest generalizing taken with
    | nil => rfl
    | cons c rest ih =>
        have hc := hrest c List.mem_cons_self
        have htail := ih (c :: taken) fun x hx => hrest x (List.mem_cons_of_mem _ hx)
        simp [List.foldlM_cons, Lexer.step, hc, htail]
  intro before
  obtain ⟨c, rest, rfl⟩ := List.exists_cons_of_ne_nil hne
  have hc := hcs c List.mem_cons_self
  have hblank : Token.isBlank c = false := by
    by_contra hblank
    simp only [Token.isBlank, decide_eq_true_eq, Bool.not_eq_false] at hblank
    rcases hblank with rfl | rfl | rfl | rfl <;> exact absurd hc (by decide)
  have hquote : c ≠ '"' := by
    rintro rfl
    exact absurd hc (by decide)
  have htail := hfold before [c] rest fun x hx => hcs x (List.mem_cons_of_mem _ hx)
  rw [List.foldlM_cons]
  simp [Lexer.step, Lexer.between, hblank, hquote, hc, htail, Lexer.finish, ht]

theorem finds_decimal (n : Int) : Finds (decimal n) [.num (Number.ofInt n)] := by
  have hchar : ∀ c ∈ decimal n, c = '-' ∨ c.isDigit := by
    intro c hc
    cases n with
    | ofNat n => exact Or.inr (Number.isDigit_of_mem hc)
    | negSucc n => exact (List.mem_cons.mp hc).imp_right Number.isDigit_of_mem
  have hne : decimal n ≠ [] := by
    cases n with
    | ofNat n => exact Nat.toDigits_ne_nil
    | negSucc n => exact List.cons_ne_nil _ _
  have hbare : ∀ c ∈ decimal n, Token.isBare c := by
    intro c hc
    rcases hchar c hc with rfl | hdigit
    · decide
    · simp [Token.isBare, Char.isAlphanum, hdigit]
  have hword (c : Char) (r : List Char) (hc : ¬ (c = '-' ∨ c.isDigit)) : decimal n ≠ c :: r := by
    intro h
    exact hc (hchar c (h ▸ List.mem_cons_self))
  refine finds_bare hne (List.all_eq_true.mpr hbare) ?_
  rw [Token.ofBare, if_neg (hword 'n' _ (by decide)), if_neg (hword 't' _ (by decide)),
    if_neg (hword 'f' _ (by decide)), Number.parse_decimal, Option.map_some]

mutual
/-- The written form of a value has its tokens. -/
theorem finds_chars : (v : Json) → Finds v.chars v.tokens
  | .null => finds_bare (List.cons_ne_nil _ _) rfl rfl
  | .bool true => finds_bare (List.cons_ne_nil _ _) rfl rfl
  | .bool false => finds_bare (List.cons_ne_nil _ _) rfl rfl
  | .int n => finds_decimal n
  | .str s => finds_quote s
  | .arr items =>
      .mark .nil (by decide) (fun _ => rfl)
        (.mark (finds_itemChars items) (by decide) (fun _ => rfl) .nil)
  | .obj members =>
      .mark .nil (by decide) (fun _ => rfl)
        (.mark (finds_memberChars members) (by decide) (fun _ => rfl) .nil)

theorem finds_itemChars : (items : List Json) → Finds (itemChars items) (itemTokens items)
  | [] => .nil
  | [v] => finds_chars v
  | v :: w :: r =>
      .mark (finds_chars v) (by decide) (fun _ => rfl) (finds_itemChars (w :: r))

theorem finds_memberChars :
    (members : List (String × Json)) → Finds (memberChars members) (memberTokens members)
  | [] => .nil
  | [(k, v)] => .mark (finds_quote k) (by decide) (fun _ => rfl) (finds_chars v)
  | (k, v) :: m :: r =>
      .mark (finds_quote k) (by decide) (fun _ => rfl)
        (.mark (finds_chars v) (by decide) (fun _ => rfl) (finds_memberChars (m :: r)))
end

theorem tokenize_chars (v : Json) : tokenize v.chars = some v.tokens := finds_chars v []

end Lexing

namespace Document

section Reading

/-- Where an item or the end of an array may come, items may come. -/
theorem foldlM_firstItem (v : Json) (r : List Json) (frames : List Frame) (rest : List Token) :
    (itemTokens (v :: r) ++ rest).foldlM Reader.step ⟨frames, .firstItem⟩ =
      (itemTokens (v :: r) ++ rest).foldlM Reader.step ⟨frames, .value⟩ := by
  cases r <;> cases v <;> rfl

/-- Where a key or the end of an object may come, members may come. -/
theorem foldlM_firstKey (m : String × Json) (r : List (String × Json)) (frames : List Frame)
    (rest : List Token) :
    (memberTokens (m :: r) ++ rest).foldlM Reader.step ⟨frames, .firstKey⟩ =
      (memberTokens (m :: r) ++ rest).foldlM Reader.step ⟨frames, .key []⟩ := by
  cases r <;> rfl

mutual
/-- The tokens of a value make a reader have read it. -/
theorem reads_tokens : (v : Json) → (frames : List Frame) →
    v.tokens.foldlM Reader.step ⟨frames, .value⟩ = some ⟨frames, .after (ofJson v)⟩
  | .null, _ => rfl
  | .bool _, _ => rfl
  | .int n, _ => by
      rw [ofJson_int]
      rfl
  | .str _, _ => rfl
  | .arr [], _ => rfl
  | .arr (v :: r), frames => by
      have hitems := reads_itemTokens (v :: r) (List.cons_ne_nil _ _) [] frames
      rw [tokens, List.foldlM_cons]
      exact (foldlM_firstItem v r _ _).trans hitems
  | .obj [], _ => rfl
  | .obj (m :: r), frames => by
      have hmembers := reads_memberTokens (m :: r) (List.cons_ne_nil _ _) [] frames
      rw [tokens, List.foldlM_cons]
      exact (foldlM_firstKey m r _ _).trans hmembers

/-- The tokens of the items that are left make a reader have read the array. -/
theorem reads_itemTokens : (rest : List Json) → rest ≠ [] → (items : List Document) →
    (frames : List Frame) →
    (itemTokens rest ++ [Token.closeArray]).foldlM Reader.step ⟨.array items :: frames, .value⟩ =
      some ⟨frames, .after (.arr (items.reverse ++ ofItems rest))⟩
  | [], h, _, _ => absurd rfl h
  | [v], _, items, frames => by
      rw [itemTokens, List.foldlM_append, reads_tokens v]
      simp [Reader.step, Reader.close?, ofItems]
  | v :: w :: r, _, items, frames => by
      have hrest := reads_itemTokens (w :: r) (List.cons_ne_nil _ _) (ofJson v :: items) frames
      rw [itemTokens, List.append_assoc, List.foldlM_append, reads_tokens v]
      simpa [Reader.step, Reader.close?, ofItems] using hrest

/-- The tokens of the members that are left make a reader have read the object. -/
theorem reads_memberTokens : (rest : List (String × Json)) → rest ≠ [] →
    (members : List (Option String × Document)) → (frames : List Frame) →
    (memberTokens rest ++ [Token.closeObject]).foldlM Reader.step ⟨frames, .key members⟩ =
      some ⟨frames, .after (.obj (members.reverse ++ ofMembers rest))⟩
  | [], h, _, _ => absurd rfl h
  | [(k, v)], _, members, frames => by
      have hv := reads_tokens v (.object members k :: frames)
      simp [memberTokens, List.foldlM_cons, Reader.step, Reader.close?, hv, ofMembers]
  | (k, v) :: m :: r, _, members, frames => by
      have hv := reads_tokens v (.object members k :: frames)
      have hrest := reads_memberTokens (m :: r) (List.cons_ne_nil _ _)
        ((some k, ofJson v) :: members) frames
      simpa [memberTokens, List.foldlM_cons, Reader.step, Reader.close?, hv, ofMembers] using hrest
end

end Reading

/-- What is written for a value is read as the document of this value. -/
theorem parse_render (v : Json) : parse v.render = some (ofJson v) := by
  rw [parse, render, String.toList_ofList, tokenize_chars, Option.bind_some, ofTokens?,
    Reader.start, reads_tokens]
  rfl

end Document

end Coordination.Json
