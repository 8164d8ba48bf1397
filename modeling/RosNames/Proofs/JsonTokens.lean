import RosNames.Text.Json

/-!
# The tokens of a JSON text

A JSON text is read one character at a time. In a string a backslash begins an escape, and four
hexadecimal digits are a UTF-16 unit, so two of them may be needed for one character. Outside of
strings the letters, digits and signs that stand together are a word, which is `null`, `true`,
`false` or a number, and blanks separate words. `Lexes` says which tokens some characters are; it is
closed under append, so the tokens of a whole are those of its parts.
-/

namespace RosNames.Json

/-- A number as it is written: its digits without the point, and the power of ten. -/
structure Decimal where
  negative : Bool
  digits : Nat
  exponent : Int
  deriving DecidableEq, Repr

namespace Decimal

def ofNat (n : Nat) : Decimal := ⟨false, n, 0⟩

def digits? (cs : List Char) : Option (List Char × List Char) :=
  if (cs.takeWhile Char.isDigit).isEmpty then none
  else some (cs.takeWhile Char.isDigit, cs.dropWhile Char.isDigit)

/-- The digits before the point. Only zero itself begins with a zero. -/
def whole? : List Char → Option (List Char × List Char)
  | '0' :: rest => some (['0'], rest)
  | cs => digits? cs

def fraction? : List Char → Option (List Char × List Char)
  | '.' :: rest => digits? rest
  | cs => some ([], cs)

def last? (cs : List Char) : Option Nat :=
  match digits? cs with
  | some (digits, []) => some (Nat.ofDigitChars 10 digits 0)
  | _ => none

def exponent? : List Char → Option Int
  | [] => some 0
  | mark :: rest =>
    if mark = 'e' ∨ mark = 'E' then
      match rest with
      | '-' :: rest => (last? rest).map fun n => -n
      | '+' :: rest => (last? rest).map fun n => n
      | rest => (last? rest).map fun n => n
    else none

def unsigned? (negative : Bool) (cs : List Char) : Option Decimal := do
  let (whole, rest) ← whole? cs
  let (fraction, rest) ← fraction? rest
  let exponent ← exponent? rest
  return ⟨negative, Nat.ofDigitChars 10 (whole ++ fraction) 0, exponent - fraction.length⟩

def ofWord? : List Char → Option Decimal
  | '-' :: cs => unsigned? true cs
  | cs => unsigned? false cs

end Decimal

inductive Token
  | openObject
  | closeObject
  | openArray
  | closeArray
  | colon
  | comma
  | null
  | bool (b : Bool)
  | number (n : Decimal)
  | text (s : String)
  deriving DecidableEq, Repr

namespace Token

def ofMark? : Char → Option Token
  | '\x7b' => some openObject
  | '\x7d' => some closeObject
  | '[' => some openArray
  | ']' => some closeArray
  | ':' => some colon
  | ',' => some comma
  | _ => none

def ofWord? (cs : List Char) : Option Token :=
  if cs = ['n', 'u', 'l', 'l'] then some null
  else if cs = ['t', 'r', 'u', 'e'] then some (bool true)
  else if cs = ['f', 'a', 'l', 's', 'e'] then some (bool false)
  else (Decimal.ofWord? cs).map number

end Token

def isBlank (c : Char) : Bool := c = ' ' || c = '\t' || c = '\n' || c = '\r'

def isWordChar (c : Char) : Bool := c.isAlphanum || c = '-' || c = '+' || c = '.'

def shortEscape? : Char → Option Char
  | '"' => some '"'
  | '\\' => some '\\'
  | '/' => some '/'
  | 'b' => some '\x08'
  | 'f' => some '\x0c'
  | 'n' => some '\n'
  | 'r' => some '\r'
  | 't' => some '\t'
  | _ => none

def hexDigit? (c : Char) : Option Nat :=
  if '0' ≤ c ∧ c ≤ '9' then some (c.toNat - '0'.toNat)
  else if 'a' ≤ c ∧ c ≤ 'f' then some (c.toNat - 'a'.toNat + 10)
  else if 'A' ≤ c ∧ c ≤ 'F' then some (c.toNat - 'A'.toNat + 10)
  else none

def isHighSurrogate (u : Nat) : Bool := 0xd800 ≤ u && u ≤ 0xdbff

def isLowSurrogate (u : Nat) : Bool := 0xdc00 ≤ u && u ≤ 0xdfff

/-- The characters that code points and UTF-16 units stand for. A high surrogate waits for the low
one that must follow, and neither stands alone. -/
def characters? : Option Nat → List Nat → Option (List Char)
  | none, [] => some []
  | some _, [] => none
  | none, u :: units =>
    if isHighSurrogate u then characters? (some u) units
    else if isLowSurrogate u then none
    else (characters? none units).map (Char.ofNat u :: ·)
  | some high, u :: units =>
    if isLowSurrogate u then
      (characters? none units).map
        (Char.ofNat (0x10000 + (high - 0xd800) * 0x400 + (u - 0xdc00)) :: ·)
    else none

/-- What is under way between two tokens. A code unit is owed some of its digits. -/
inductive Mode
  | between
  | word (cs : List Char)
  | text (units : List Nat)
  | escape (units : List Nat)
  | codeUnit (units : List Nat) (owed value : Nat)
  deriving DecidableEq, Repr

structure Lexer where
  tokens : List Token
  mode : Mode
  deriving DecidableEq, Repr

namespace Lexer

def endWord? (tokens : List Token) (cs : List Char) : Option (List Token) :=
  (Token.ofWord? cs).map fun t => tokens ++ [t]

def start? (tokens : List Token) (c : Char) : Option Lexer :=
  if isBlank c then some ⟨tokens, .between⟩
  else if c = '"' then some ⟨tokens, .text []⟩
  else if isWordChar c then some ⟨tokens, .word [c]⟩
  else (Token.ofMark? c).map fun t => ⟨tokens ++ [t], .between⟩

def step (l : Lexer) (c : Char) : Option Lexer :=
  match l.mode with
  | .between => start? l.tokens c
  | .word cs =>
    if isWordChar c then some ⟨l.tokens, .word (cs ++ [c])⟩
    else (endWord? l.tokens cs).bind fun tokens => start? tokens c
  | .text units =>
    if c = '"' then
      (characters? none units).map fun cs => ⟨l.tokens ++ [.text (String.ofList cs)], .between⟩
    else if c = '\\' then some ⟨l.tokens, .escape units⟩
    else if c.toNat < 0x20 then none
    else some ⟨l.tokens, .text (units ++ [c.toNat])⟩
  | .escape units =>
    if c = 'u' then some ⟨l.tokens, .codeUnit units 4 0⟩
    else (shortEscape? c).map fun e => ⟨l.tokens, .text (units ++ [e.toNat])⟩
  | .codeUnit units owed value => (hexDigit? c).map fun d =>
    if owed ≤ 1 then ⟨l.tokens, .text (units ++ [value * 16 + d])⟩
    else ⟨l.tokens, .codeUnit units (owed - 1) (value * 16 + d)⟩

def close? (l : Lexer) : Option (List Token) :=
  match l.mode with
  | .between => some l.tokens
  | .word cs => endWord? l.tokens cs
  | _ => none

end Lexer

def tokens? (cs : List Char) : Option (List Token) :=
  (cs.foldlM Lexer.step ⟨[], .between⟩).bind Lexer.close?

/-- Read between two tokens, the characters are these tokens and leave none under way. -/
def Lexes (cs : List Char) (new : List Token) : Prop :=
  ∀ tokens, cs.foldlM Lexer.step ⟨tokens, .between⟩ = some ⟨tokens ++ new, .between⟩

theorem Lexes.append {cs ds : List Char} {new more : List Token} (hcs : Lexes cs new)
    (hds : Lexes ds more) : Lexes (cs ++ ds) (new ++ more) := by
  intro tokens
  rw [List.foldlM_append, hcs tokens, ← List.append_assoc]
  exact hds (tokens ++ new)

theorem Lexes.tokens? {cs : List Char} {new : List Token} (h : Lexes cs new) :
    tokens? cs = some new := by
  rw [Json.tokens?, h []]
  rfl

theorem lexes_mark {c : Char} {t : Token} (h : Token.ofMark? c = some t) : Lexes [c] [t] := by
  intro tokens
  unfold Token.ofMark? at h
  split at h <;> cases h <;> rfl

/-! ## Strings -/

theorem characters?_map_toNat (cs : List Char) :
    characters? none (cs.map Char.toNat) = some cs := by
  induction cs with
  | nil => rfl
  | cons c cs ih =>
    have hvalid : c.toNat < 0xd800 ∨ 0xdfff < c.toNat ∧ c.toNat < 0x110000 := c.valid
    have hhigh : isHighSurrogate c.toNat = false := by
      simp only [isHighSurrogate, Bool.and_eq_false_iff, decide_eq_false_iff_not]
      omega
    have hlow : isLowSurrogate c.toNat = false := by
      simp only [isLowSurrogate, Bool.and_eq_false_iff, decide_eq_false_iff_not]
      omega
    simp [characters?, hhigh, hlow, ih]

theorem escapeChar_cases (c : Char) :
    (∃ e, escapeChar c = ['\\', e] ∧ e ≠ 'u' ∧ shortEscape? e = some c) ∨
    (c.toNat < 0x20 ∧ escapeChar c = controlEscape c) ∨
    (c ≠ '"' ∧ c ≠ '\\' ∧ 0x20 ≤ c.toNat ∧ escapeChar c = [c]) := by
  by_cases hshort : c ∈ ['"', '\\', '\x08', '\x0c', '\n', '\r', '\t']
  · simp only [List.mem_cons, List.not_mem_nil, or_false] at hshort
    apply Or.inl
    rcases hshort with rfl | rfl | rfl | rfl | rfl | rfl | rfl
    · exact ⟨'"', rfl, by decide, rfl⟩
    · exact ⟨'\\', rfl, by decide, rfl⟩
    · exact ⟨'b', rfl, by decide, rfl⟩
    · exact ⟨'f', rfl, by decide, rfl⟩
    · exact ⟨'n', rfl, by decide, rfl⟩
    · exact ⟨'r', rfl, by decide, rfl⟩
    · exact ⟨'t', rfl, by decide, rfl⟩
  · simp only [List.mem_cons, List.not_mem_nil, or_false, not_or] at hshort
    obtain ⟨hquote, hbackslash, hb, hf, hn, hr, ht⟩ := hshort
    have hescape : escapeChar c = if c.toNat < 0x20 then controlEscape c else [c] := by
      rw [escapeChar, if_neg hquote, if_neg hbackslash, if_neg hb, if_neg hf, if_neg hn, if_neg hr,
        if_neg ht]
    by_cases hcontrol : c.toNat < 0x20
    · exact Or.inr (Or.inl ⟨hcontrol, hescape.trans (if_pos hcontrol)⟩)
    · exact Or.inr (Or.inr ⟨hquote, hbackslash, Nat.le_of_not_lt hcontrol,
        hescape.trans (if_neg hcontrol)⟩)

theorem hexDigit?_digitChar {d : Nat} (h : d < 16) : hexDigit? (Nat.digitChar d) = some d := by
  have hall : ∀ d < 16, hexDigit? (Nat.digitChar d) = some d := by decide
  exact hall d h

theorem foldlM_step_controlEscape {c : Char} (h : c.toNat < 0x20) (tokens : List Token)
    (units : List Nat) : (controlEscape c).foldlM Lexer.step ⟨tokens, .text units⟩ =
      some ⟨tokens, .text (units ++ [c.toNat])⟩ := by
  have hhigh := hexDigit?_digitChar (d := c.toNat / 16) (by omega)
  have hlow := hexDigit?_digitChar (d := c.toNat % 16) (Nat.mod_lt _ (by decide))
  have hzero : hexDigit? '0' = some 0 := by decide
  have hvalue : c.toNat / 16 * 16 + c.toNat % 16 = c.toNat := Nat.div_add_mod' c.toNat 16
  simp [controlEscape, Lexer.step, hzero, hhigh, hlow, hvalue]

/-- An escaped character adds itself to the string that is under way. -/
theorem foldlM_step_escapeChar (c : Char) (tokens : List Token) (units : List Nat) :
    (escapeChar c).foldlM Lexer.step ⟨tokens, .text units⟩ =
      some ⟨tokens, .text (units ++ [c.toNat])⟩ := by
  rcases escapeChar_cases c with ⟨e, h, hu, he⟩ | ⟨hcontrol, h⟩ | ⟨hquote, hbackslash, hprint, h⟩
  · rw [h]
    simp [Lexer.step, hu, he]
  · rw [h]
    exact foldlM_step_controlEscape hcontrol tokens units
  · rw [h]
    simp [Lexer.step, hquote, hbackslash, Nat.not_lt.mpr hprint]

theorem foldlM_step_escaped (cs : List Char) (tokens : List Token) (units : List Nat) :
    (cs.flatMap escapeChar).foldlM Lexer.step ⟨tokens, .text units⟩ =
      some ⟨tokens, .text (units ++ cs.map Char.toNat)⟩ := by
  induction cs generalizing units with
  | nil => simp
  | cons c cs ih =>
    rw [List.flatMap_cons, List.foldlM_append, foldlM_step_escapeChar, List.map_cons]
    exact (ih (units ++ [c.toNat])).trans (by simp)

theorem lexes_quote (s : String) : Lexes (quote s).toList [.text s] := by
  intro tokens
  have hopen : Lexer.step ⟨tokens, .between⟩ '"' = some ⟨tokens, .text []⟩ := rfl
  have hclose : Lexer.step ⟨tokens, .text (s.toList.map Char.toNat)⟩ '"' =
      some ⟨tokens ++ [.text s], .between⟩ := by
    simp [Lexer.step, characters?_map_toNat]
  rw [quote, String.toList_ofList, List.cons_append, List.foldlM_cons, hopen]
  change List.foldlM Lexer.step ⟨tokens, .text []⟩ (s.toList.flatMap escapeChar ++ ['"']) = _
  rw [List.foldlM_append, foldlM_step_escaped, List.nil_append]
  simpa using hclose

/-! ## Words -/

theorem isWordChar_of_isDigit {c : Char} (h : c.isDigit) : isWordChar c := by
  simp [isWordChar, Char.isAlphanum, h]

theorem start?_of_isWordChar {c : Char} (h : isWordChar c) (tokens : List Token) :
    Lexer.start? tokens c = some ⟨tokens, .word [c]⟩ := by
  have hblank : isBlank c = false := by
    rw [← Bool.not_eq_true]
    intro hc
    simp only [isBlank, Bool.or_eq_true, decide_eq_true_eq] at hc
    rcases hc with ((rfl | rfl) | rfl) | rfl <;> exact absurd h (by decide)
  have hquote : c ≠ '"' := by
    rintro rfl
    exact absurd h (by decide)
  simp [Lexer.start?, hblank, hquote, h]

theorem foldlM_step_word {cs : List Char} (h : ∀ c ∈ cs, isWordChar c) (tokens : List Token)
    (front : List Char) : cs.foldlM Lexer.step ⟨tokens, .word front⟩ =
      some ⟨tokens, .word (front ++ cs)⟩ := by
  induction cs generalizing front with
  | nil => simp
  | cons c cs ih =>
    obtain ⟨hc, hcs⟩ := List.forall_mem_cons.mp h
    have hstep : Lexer.step ⟨tokens, .word front⟩ c = some ⟨tokens, .word (front ++ [c])⟩ := by
      simp [Lexer.step, hc]
    rw [List.foldlM_cons, hstep]
    exact (ih hcs (front ++ [c])).trans (by simp)

/-- A word ends where a mark stands. -/
theorem lexes_word {w : List Char} (hne : w ≠ []) (hw : ∀ c ∈ w, isWordChar c) {t : Token}
    (ht : Token.ofWord? w = some t) {m : Char} {u : Token} (hu : Token.ofMark? m = some u) :
    Lexes (w ++ [m]) [t, u] := by
  intro tokens
  obtain ⟨c, cs, rfl⟩ := List.exists_cons_of_ne_nil hne
  obtain ⟨hc, hcs⟩ := List.forall_mem_cons.mp hw
  -- a letter of a word would open a word, where a mark gives its token
  have hmark : isWordChar m = false := by
    rw [← Bool.not_eq_true]
    intro hm
    have hstart := start?_of_isWordChar hm tokens
    have hlex := lexes_mark hu tokens
    simp [Lexer.step, hstart] at hlex
  have hend : Lexer.step ⟨tokens, .word (c :: cs)⟩ m = some ⟨tokens ++ [t, u], .between⟩ := by
    have hstart : Lexer.start? (tokens ++ [t]) m = some ⟨tokens ++ [t] ++ [u], .between⟩ := by
      simpa [Lexer.step] using lexes_mark hu (tokens ++ [t])
    simpa [Lexer.step, hmark, Lexer.endWord?, ht] using hstart
  rw [List.cons_append, List.foldlM_cons]
  change (Lexer.start? tokens c >>= fun l => (cs ++ [m]).foldlM Lexer.step l) = _
  rw [start?_of_isWordChar hc, Option.bind_eq_bind, Option.bind_some, List.foldlM_append,
    foldlM_step_word hcs]
  simpa using hend

/-! ## Numbers -/

theorem isDigit_of_mem_toDigits {n : Nat} : ∀ c ∈ Nat.toDigits 10 n, c.isDigit :=
  fun _ hc => Nat.isDigit_of_mem_toDigits (by decide) (by decide) hc

theorem head?_toDigits_ne {n : Nat} (h : 0 < n) : (Nat.toDigits 10 n).head? ≠ some '0' := by
  induction n using Nat.strongRecOn with
  | _ n ih =>
    rcases Nat.lt_or_ge n 10 with hlt | hge
    · rw [Nat.toDigits_of_lt_base hlt]
      simpa using Nat.ne_of_gt h
    · have hfront := ih (n / 10) (Nat.div_lt_self h (by decide)) (Nat.div_pos hge (by decide))
      rw [Nat.toDigits_of_base_le (by decide) hge, List.head?_append]
      cases hdigits : Nat.toDigits 10 (n / 10) with
      | nil => exact absurd hdigits Nat.toDigits_ne_nil
      | cons d ds => simpa [hdigits] using hfront

namespace Decimal

theorem digits?_toDigits (n : Nat) :
    digits? (Nat.toDigits 10 n) = some (Nat.toDigits 10 n, []) := by
  have htake : (Nat.toDigits 10 n ++ []).takeWhile Char.isDigit = Nat.toDigits 10 n ++ [] :=
    List.takeWhile_append_of_pos isDigit_of_mem_toDigits
  have hdrop : (Nat.toDigits 10 n ++ []).dropWhile Char.isDigit = [] :=
    List.dropWhile_append_of_pos isDigit_of_mem_toDigits
  rw [List.append_nil] at htake hdrop
  have hne : (Nat.toDigits 10 n).isEmpty = false := by simp
  rw [digits?, htake, hdrop, hne]
  rfl

theorem whole?_toDigits (n : Nat) :
    whole? (Nat.toDigits 10 n) = some (Nat.toDigits 10 n, []) := by
  rcases Nat.eq_zero_or_pos n with rfl | hpos
  · rfl
  · have hhead := head?_toDigits_ne hpos
    unfold whole?
    split
    · next rest heq => simp [heq] at hhead
    · exact digits?_toDigits n

theorem ofWord?_toDigits (n : Nat) : ofWord? (Nat.toDigits 10 n) = some (ofNat n) := by
  have hunsigned : unsigned? false (Nat.toDigits 10 n) = some (ofNat n) := by
    simp [unsigned?, whole?_toDigits, fraction?, exponent?, ofNat]
  unfold ofWord?
  split
  · next rest heq =>
    have hsign : '-'.isDigit := isDigit_of_mem_toDigits (n := n) '-' (by simp [heq])
    exact absurd hsign (by decide)
  · exact hunsigned

end Decimal

theorem ofWord?_toDigits (n : Nat) :
    Token.ofWord? (Nat.toDigits 10 n) = some (.number (.ofNat n)) := by
  have hne (c : Char) (cs : List Char) (hc : c.isDigit = false) : Nat.toDigits 10 n ≠ c :: cs := by
    intro heq
    have hdigit : c.isDigit := isDigit_of_mem_toDigits (n := n) c (by simp [heq])
    rw [hc] at hdigit
    cases hdigit
  rw [Token.ofWord?, if_neg (hne _ _ (by decide)), if_neg (hne _ _ (by decide)),
    if_neg (hne _ _ (by decide)), Decimal.ofWord?_toDigits]
  rfl

/-! ## Objects -/

def Value.token : Value → Token
  | null => .null
  | bool b => .bool b
  | number n => .number (.ofNat n)
  | text s => .text s

theorem lexes_render (v : Value) {m : Char} {u : Token} (hu : Token.ofMark? m = some u) :
    Lexes (v.render.toList ++ [m]) [v.token, u] := by
  cases v with
  | null => exact lexes_word (w := ['n', 'u', 'l', 'l']) (by simp) (by simp [isWordChar]) rfl hu
  | bool b =>
    cases b with
    | true => exact lexes_word (w := ['t', 'r', 'u', 'e']) (by simp) (by simp [isWordChar]) rfl hu
    | false =>
      exact lexes_word (w := ['f', 'a', 'l', 's', 'e']) (by simp) (by simp [isWordChar]) rfl hu
  | number n =>
    rw [Value.render, Nat.toList_repr]
    exact lexes_word Nat.toDigits_ne_nil
      (fun c hc => isWordChar_of_isDigit (isDigit_of_mem_toDigits c hc)) (ofWord?_toDigits n) hu
  | text s => exact (lexes_quote s).append (lexes_mark hu)

def memberTokens (m : String × Value) : List Token := [.text m.1, .colon, m.2.token]

def membersTokens : List (String × Value) → List Token
  | [] => [.closeObject]
  | [m] => memberTokens m ++ [.closeObject]
  | m :: next :: rest => memberTokens m ++ .comma :: membersTokens (next :: rest)

theorem lexes_member (m : String × Value) {c : Char} {u : Token} (hu : Token.ofMark? c = some u) :
    Lexes ((member m).toList ++ [c]) (memberTokens m ++ [u]) := by
  have hkey : Lexes ((quote m.1).toList ++ [':']) [.text m.1, .colon] :=
    (lexes_quote m.1).append (lexes_mark rfl)
  have h := hkey.append (lexes_render m.2 hu)
  simpa [member, memberTokens] using h

theorem lexes_members (members : List (String × Value)) :
    Lexes ([','].intercalate (members.map fun m => (member m).toList) ++ ['\x7d'])
      (membersTokens members) := by
  induction members using membersTokens.induct with
  | case1 => exact lexes_mark rfl
  | case2 m => simpa [membersTokens] using lexes_member m (c := '\x7d') rfl
  | case3 m next rest ih =>
    have h := (lexes_member m (c := ',') rfl).append ih
    simpa [membersTokens, List.intercalate_cons_cons] using h

theorem tokens?_object (members : List (String × Value)) :
    tokens? (object members).toList = some (.openObject :: membersTokens members) := by
  have hopen : Lexes ['\x7b'] [.openObject] := lexes_mark rfl
  have h := hopen.append (lexes_members members)
  have hobject : (object members).toList = '\x7b' ::
      ([','].intercalate (members.map fun m => (member m).toList) ++ ['\x7d']) := by
    simp [object, String.toList_intercalate, Function.comp_def]
  rw [hobject]
  exact h.tokens?

end RosNames.Json
