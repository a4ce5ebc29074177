import FeedQuery.Json.Print
import FeedQuery.Proofs.Number.Written

/-!
Reading the tokens of a compact text gives the tokens that it was written from. No character of such
a text is a control character, so it has no line break.
-/
namespace FeedQuery

namespace Piece

theorem hexValue?_hexDigit : ∀ d < 16, hexValue? (hexDigit d) = some d := by decide

theorem le_toNat_hexDigit : ∀ d < 16, 32 ≤ (hexDigit d).toNat := by decide

theorem unit?_unitChars {unit : Nat} (h : unit < 0x10000) :
    unit? (hexDigit (unit / 4096 % 16)) (hexDigit (unit / 256 % 16)) (hexDigit (unit / 16 % 16))
      (hexDigit (unit % 16)) = some unit := by
  have hdigit : ∀ d, hexValue? (hexDigit (d % 16)) = some (d % 16) :=
    fun d => hexValue?_hexDigit _ (Nat.mod_lt _ (by decide))
  simp only [unit?, hdigit, Option.bind_eq_bind, Option.bind_some, Option.pure_def]
  congr
  omega

end Piece

namespace Quotation

open Piece

theorem scan_unitChars_append {c : Char} (h : c.toNat < 32) (rest : List Char) :
    scan (unitChars c.toNat ++ rest) =
      (⟨.char c :: (scan rest).1.pieces, (scan rest).1.flaw?⟩, (scan rest).2) := by
  have hpiece : ofUnit c.toNat = .char c := by
    have hlead : isLeading c.toNat = false := by simp [isLeading]; omega
    have htrail : isTrailing c.toNat = false := by simp [isTrailing]; omega
    rw [ofUnit, hlead, htrail, Char.ofNat_toNat]
    rfl
  rw [unitChars, List.cons_append, List.cons_append, List.cons_append, List.cons_append,
    List.cons_append, List.cons_append, List.nil_append, scan, unit?_unitChars (by omega)]
  dsimp only
  rw [hpiece]

theorem scan_cons {c : Char} (hquote : c ≠ '"') (hback : c ≠ '\\') (h : ¬ c.toNat < 32)
    (rest : List Char) :
    scan (c :: rest) =
      (⟨.char c :: (scan rest).1.pieces, (scan rest).1.flaw?⟩, (scan rest).2) := by
  rw [scan.eq_def]
  split <;> simp_all

/-- A character is read back from what is written for it. -/
theorem scan_chars_append (c : Char) (rest : List Char) :
    scan ((Piece.char c).chars ++ rest) =
      (⟨.char c :: (scan rest).1.pieces, (scan rest).1.flaw?⟩, (scan rest).2) := by
  unfold Piece.chars
  split
  case h_1 h => cases h
  case h_9 hquote hback _ _ _ _ _ h =>
    obtain rfl := Piece.char.inj h
    split
    · rename_i hlt
      exact scan_unitChars_append hlt rest
    · rename_i hge
      exact scan_cons hquote hback hge rest
  all_goals
    rename_i h
    obtain rfl := Piece.char.inj h
    rfl

theorem scan_ofString_append (cs rest : List Char) :
    scan ((cs.map Piece.char).flatMap Piece.chars ++ '"' :: rest) =
      (⟨cs.map .char, none⟩, rest) := by
  induction cs with
  | nil => rfl
  | cons c cs ih =>
    rw [List.map_cons, List.flatMap_cons, List.append_assoc, scan_chars_append, ih]

@[simp] theorem join_map_char (cs : List Char) : join none (cs.map .char) = .ok cs := by
  induction cs with
  | nil => rfl
  | cons c cs ih =>
    rw [List.map_cons, join, ih]
    rfl

@[simp] theorem text_ofString (s : String) : (ofString s).text = .ok s := by
  rw [text, ofString, join_map_char]
  exact congrArg Except.ok String.ofList_toList

/-- What is written for a character has no control character. -/
theorem le_toNat_of_mem_chars {c d : Char} (h : d ∈ (Piece.char c).chars) : 32 ≤ d.toNat := by
  have hdigit : ∀ n, 32 ≤ (hexDigit (n % 16)).toNat :=
    fun n => le_toNat_hexDigit _ (Nat.mod_lt _ (by decide))
  unfold Piece.chars at h
  split at h
  case h_1 h' => cases h'
  case h_9 h' =>
    obtain rfl := Piece.char.inj h'
    split at h
    · rcases List.mem_cons.1 h with rfl | h
      · decide
      rcases List.mem_cons.1 h with rfl | h
      · decide
      simp only [List.mem_cons, List.not_mem_nil, or_false] at h
      rcases h with rfl | rfl | rfl | rfl <;> exact hdigit _
    · rename_i hge
      rw [List.mem_singleton.1 h]
      exact Nat.le_of_not_lt hge
  all_goals
    rcases List.mem_cons.1 h with rfl | h
    · decide
    · rw [List.mem_singleton.1 h]
      decide

end Quotation

namespace Token

variable {t : Token} {c : Char} {cs rest : List Char}

theorem scan_of_scanFrom (hc : isBlank c = false) (h : scanFrom c cs = .ok (t, rest)) :
    scan (c :: cs) = t :: scan rest := by
  rw [scan, hc]
  simp only [Bool.false_eq_true, ↓reduceIte]
  split <;> simp_all

/-- The tokens that values are written with. -/
def Written : Token → Prop
  | .number n => n.WellFormed
  | .string q => ∃ s, q = .ofString s
  | .broken _ => False
  | _ => True

theorem le_toNat_of_mem_chars (h : t.Written) (hc : c ∈ t.chars) : 32 ≤ c.toNat := by
  cases t with
  | number n => exact h.le_toNat_of_mem_chars hc
  | string q =>
    obtain ⟨s, rfl⟩ := h
    rcases List.mem_cons.1 hc with rfl | hc
    · decide
    rcases List.mem_append.1 hc with hc | hc
    · obtain ⟨p, hp, hc⟩ := List.mem_flatMap.1 hc
      obtain ⟨d, -, rfl⟩ := List.mem_map.1 hp
      exact Quotation.le_toNat_of_mem_chars hc
    · rw [List.mem_singleton.1 hc]
      decide
  | broken flaw => exact h.elim
  | bool b =>
    have hword : (wordChars b).all (32 ≤ ·.toNat) = true := by cases b <;> rfl
    exact of_decide_eq_true (List.all_eq_true.1 hword c hc)
  | null =>
    have hword : Token.null.chars.all (32 ≤ ·.toNat) = true := rfl
    exact of_decide_eq_true (List.all_eq_true.1 hword c hc)
  | _ =>
    rw [List.mem_singleton.1 hc]
    decide

/-- A token that the next character cannot belong to. Only a numeral may go on. -/
def Ends (rest : List Char) : Token → Prop
  | .number _ => Numeral.Delimits rest
  | _ => True

theorem scanWord_append (t : Token) (ws rest : List Char) :
    scanWord t ws (ws ++ rest) = .ok (t, rest) := by
  induction ws with
  | nil => rfl
  | cons w ws ih => rw [List.cons_append, scanWord, if_pos rfl, ih]

/-- A minus sign or a digit starts a numeral, as nothing else does. -/
theorem scanFrom_of_numeral (hc : c = '-' ∨ c.isDigit = true) (cs : List Char) :
    isBlank c = false ∧
      scanFrom c cs = (Numeral.scan (c :: cs)).map fun (n, rest) => (.number n, rest) := by
  have hfirst : (c = '-' || c.isDigit) = true := by
    rcases hc with rfl | hc
    · rfl
    · rw [hc, Bool.or_true]
  refine ⟨?_, ?_⟩
  · cases hb : isBlank c with
    | false => rfl
    | true =>
      simp only [isBlank, Bool.or_eq_true, decide_eq_true_eq] at hb
      rcases hb with ((rfl | rfl) | rfl) | rfl <;> cases hfirst
  · unfold scanFrom
    split
    case h_11 => rw [if_pos (by simpa using hfirst)]
    all_goals cases hfirst

theorem scan_numeral_append {n : Numeral} (h : n.WellFormed) (hr : Numeral.Delimits rest) :
    scan (n.chars ++ rest) = .number n :: scan rest := by
  have hscan := Numeral.scan_chars_append h hr
  obtain ⟨c, tail, hchars, hc⟩ := Numeral.chars_eq_cons h
  rw [hchars, List.cons_append] at hscan ⊢
  obtain ⟨hblank, hfrom⟩ := scanFrom_of_numeral hc (tail ++ rest)
  rw [hscan] at hfrom
  exact scan_of_scanFrom hblank hfrom

theorem scan_ofString_append (s : String) (rest : List Char) :
    scan ((Quotation.ofString s).chars ++ rest) = .string (.ofString s) :: scan rest := by
  refine scan_of_scanFrom rfl ?_
  rw [List.append_eq, List.append_assoc, scanFrom]
  simp only [Quotation.ofString, List.singleton_append, Quotation.scan_ofString_append]

/-- A written token is read back. -/
theorem scan_chars_append (h : t.Written) (hr : t.Ends rest) :
    scan (t.chars ++ rest) = t :: scan rest := by
  cases t with
  | null => exact scan_of_scanFrom rfl (scanWord_append _ _ _)
  | bool b => cases b <;> exact scan_of_scanFrom rfl (scanWord_append _ _ _)
  | number n => exact scan_numeral_append h hr
  | string q =>
    obtain ⟨s, rfl⟩ := h
    exact scan_ofString_append s rest
  | broken flaw => exact h.elim
  | _ => exact scan_of_scanFrom rfl rfl

/-- The text of tokens that are written one after the other. -/
def text (ts : List Token) : List Char := ts.flatMap chars

@[simp] theorem text_cons (t : Token) (ts : List Token) : text (t :: ts) = t.chars ++ text ts := rfl

@[simp] theorem text_append (ts us : List Token) : text (ts ++ us) = text ts ++ text us :=
  List.flatMap_append

theorem scan_text_cons (t : Token) (ts : List Token) (h : t.Written)
    (hr : t.Ends (text ts ++ rest)) :
    scan (text (t :: ts) ++ rest) = t :: scan (text ts ++ rest) := by
  rw [text_cons, List.append_assoc, scan_chars_append h hr]

end Token

namespace Numeral

theorem delimits_nil : Delimits [] := ⟨nofun, nofun, nofun⟩

theorem delimits_cons {c : Char} (hc : c = ',' ∨ c = ']' ∨ c = '}') (rest : List Char) :
    Delimits (c :: rest) := by
  rcases hc with rfl | rfl | rfl <;>
    exact ⟨by rintro _ ⟨⟩; rfl, by rintro ⟨⟩, by rintro _ ⟨⟩; decide⟩

end Numeral

namespace Json

open Token

theorem delimits_tokensItems (items : List Json) (rest : List Char) :
    Numeral.Delimits (text (tokensItems items) ++ rest) := by
  cases items with
  | nil => exact Numeral.delimits_cons (by simp) _
  | cons j items => exact Numeral.delimits_cons (by simp) _

theorem delimits_tokensFields (fields : List (String × Json)) (rest : List Char) :
    Numeral.Delimits (text (tokensFields fields) ++ rest) := by
  cases fields with
  | nil => exact Numeral.delimits_cons (by simp) _
  | cons f fields => exact Numeral.delimits_cons (by simp) _

theorem scan_text_field (k : String) (ts : List Token) (rest : List Char) :
    scan (text (.string (.ofString k) :: .colon :: ts) ++ rest) =
      .string (.ofString k) :: .colon :: scan (text ts ++ rest) := by
  rw [scan_text_cons (.string (.ofString k)) _ ⟨k, rfl⟩ trivial,
    scan_text_cons .colon _ trivial trivial]

mutual

/-- The tokens of a value are read back from its text. -/
theorem scan_tokens (rest : List Char) (hr : Numeral.Delimits rest) :
    (j : Json) → scan (text j.tokens ++ rest) = j.tokens ++ scan rest
  | .null => scan_text_cons .null [] trivial trivial
  | .bool b => scan_text_cons (.bool b) [] trivial trivial
  | .number n => scan_text_cons (.number n.numeral) [] n.wellFormed_numeral hr
  | .string s => scan_text_cons (.string (.ofString s)) [] ⟨s, rfl⟩ trivial
  | .array [] => by
    rw [tokens, scan_text_cons .openArray _ trivial trivial,
      scan_text_cons .closeArray _ trivial trivial]
    rfl
  | .array (j :: items) => by
    rw [tokens, scan_text_cons .openArray _ trivial trivial, text_append, List.append_assoc,
      scan_tokens _ (delimits_tokensItems items rest) j, scan_tokensItems rest items,
      List.cons_append, List.append_assoc]
  | .object [] => by
    rw [tokens, scan_text_cons .openObject _ trivial trivial,
      scan_text_cons .closeObject _ trivial trivial]
    rfl
  | .object ((k, v) :: fields) => by
    rw [tokens, scan_text_cons .openObject _ trivial trivial, scan_text_field, text_append,
      List.append_assoc, scan_tokens _ (delimits_tokensFields fields rest) v,
      scan_tokensFields rest fields, List.cons_append, List.cons_append, List.cons_append,
      List.append_assoc]

theorem scan_tokensItems (rest : List Char) :
    (items : List Json) → scan (text (tokensItems items) ++ rest) = tokensItems items ++ scan rest
  | [] => scan_text_cons .closeArray [] trivial trivial
  | j :: items => by
    rw [tokensItems, scan_text_cons .comma _ trivial trivial, text_append, List.append_assoc,
      scan_tokens _ (delimits_tokensItems items rest) j, scan_tokensItems rest items,
      List.cons_append, List.append_assoc]

theorem scan_tokensFields (rest : List Char) : (fields : List (String × Json)) →
    scan (text (tokensFields fields) ++ rest) = tokensFields fields ++ scan rest
  | [] => scan_text_cons .closeObject [] trivial trivial
  | (k, v) :: fields => by
    rw [tokensFields, scan_text_cons .comma _ trivial trivial, scan_text_field, text_append,
      List.append_assoc, scan_tokens _ (delimits_tokensFields fields rest) v,
      scan_tokensFields rest fields, List.cons_append, List.cons_append, List.cons_append,
      List.append_assoc]

end

theorem written_field (k : String) {ts us : List Token} (hts : ∀ t ∈ ts, t.Written)
    (hus : ∀ t ∈ us, t.Written) : ∀ t ∈ .string (.ofString k) :: .colon :: (ts ++ us), t.Written :=
  List.forall_mem_cons.2 ⟨⟨k, rfl⟩, List.forall_mem_cons.2
    ⟨trivial, List.forall_mem_append.2 ⟨hts, hus⟩⟩⟩

mutual

theorem written_tokens : (j : Json) → ∀ t ∈ j.tokens, t.Written
  | .null => List.forall_mem_singleton.2 trivial
  | .bool _ => List.forall_mem_singleton.2 trivial
  | .number n => List.forall_mem_singleton.2 n.wellFormed_numeral
  | .string s => List.forall_mem_singleton.2 ⟨s, rfl⟩
  | .array [] => List.forall_mem_cons.2 ⟨trivial, List.forall_mem_singleton.2 trivial⟩
  | .array (j :: items) => List.forall_mem_cons.2
    ⟨trivial, List.forall_mem_append.2 ⟨written_tokens j, written_tokensItems items⟩⟩
  | .object [] => List.forall_mem_cons.2 ⟨trivial, List.forall_mem_singleton.2 trivial⟩
  | .object ((k, v) :: fields) => List.forall_mem_cons.2
    ⟨trivial, written_field k (written_tokens v) (written_tokensFields fields)⟩

theorem written_tokensItems : (items : List Json) → ∀ t ∈ tokensItems items, t.Written
  | [] => List.forall_mem_singleton.2 trivial
  | j :: items => List.forall_mem_cons.2
    ⟨trivial, List.forall_mem_append.2 ⟨written_tokens j, written_tokensItems items⟩⟩

theorem written_tokensFields :
    (fields : List (String × Json)) → ∀ t ∈ tokensFields fields, t.Written
  | [] => List.forall_mem_singleton.2 trivial
  | (k, v) :: fields => List.forall_mem_cons.2
    ⟨trivial, written_field k (written_tokens v) (written_tokensFields fields)⟩

end

/-- A compact text has no control character. -/
theorem le_toNat_of_mem_compactChars {j : Json} {c : Char} (h : c ∈ j.compactChars) :
    32 ≤ c.toNat := by
  obtain ⟨t, ht, hc⟩ := List.mem_flatMap.1 h
  exact Token.le_toNat_of_mem_chars (j.written_tokens t ht) hc

theorem exists_tokensFields_eq (fields : List (String × Json)) :
    ∃ ts, tokensFields fields = ts ++ [.closeObject] := by
  induction fields with
  | nil => exact ⟨[], rfl⟩
  | cons f fields ih =>
    obtain ⟨ts, hts⟩ := ih
    refine ⟨.comma :: .string (.ofString f.1) :: .colon :: (f.2.tokens ++ ts), ?_⟩
    rw [tokensFields, hts, List.cons_append, List.cons_append, List.cons_append, List.append_assoc]

/-- An object is written between braces. -/
theorem exists_compactChars_object_eq (fields : List (String × Json)) :
    ∃ inner, (object fields).compactChars = '{' :: (inner ++ ['}']) := by
  cases fields with
  | nil => exact ⟨[], rfl⟩
  | cons f fields =>
    obtain ⟨ts, hts⟩ := exists_tokensFields_eq fields
    refine ⟨text (.string (.ofString f.1) :: .colon :: (f.2.tokens ++ ts)), ?_⟩
    rw [compactChars, tokens, hts, ← List.append_assoc, ← List.cons_append, ← List.cons_append,
      ← List.cons_append, List.flatMap_append]
    rfl

end Json

end FeedQuery
