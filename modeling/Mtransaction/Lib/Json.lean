import Mtransaction.Lib.Decimal
import Mathlib.Data.List.Forall2

/-!
# JSON texts

A reader for the JSON grammar, and what it makes of texts that are put together from parts.
Each function takes what it reads off the front of the text and returns the rest.  Nesting is
bounded by fuel; a text is well formed if some fuel is enough.
-/

namespace Json

inductive Value
  | null
  | bool (b : Bool)
  /-- the literal as it stands -/
  | number (literal : List Char)
  | string (s : String)
  | array (items : List Value)
  | object (members : List (String × Value))

/-- The value of a literal that is a natural number. -/
def Value.asNat : Value → Option ℕ
  | .number literal =>
    if literal.all Char.isDigit then some (Nat.ofDigitChars 10 literal 0) else none
  | _ => none

def isWs (c : Char) : Bool := c = ' ' ∨ c = '\t' ∨ c = '\n' ∨ c = '\r'

def skipWs (cs : List Char) : List Char := cs.dropWhile isWs

/-! ## Strings -/

def hexValue (c : Char) : Option ℕ :=
  if c.isDigit then some (c.toNat - '0'.toNat)
  else if 'a' ≤ c ∧ c ≤ 'f' then some (c.toNat - 'a'.toNat + 10)
  else if 'A' ≤ c ∧ c ≤ 'F' then some (c.toNat - 'A'.toNat + 10)
  else none

def simpleEscape (c : Char) : Option Char :=
  if c = '"' ∨ c = '\\' ∨ c = '/' then some c
  else if c = 'b' then some (Char.ofNat 8)
  else if c = 'f' then some (Char.ofNat 12)
  else if c = 'n' then some '\n'
  else if c = 'r' then some '\r'
  else if c = 't' then some '\t'
  else none

/-- Where a reader stands inside a string.  A surrogate that still needs its partner is carried
along. -/
inductive CharState
  | plain
  /-- behind a backslash -/
  | escape (high : Option ℕ)
  /-- behind `k` digits of a `\u` escape -/
  | hex (high : Option ℕ) (k code : ℕ)
  /-- behind a high surrogate -/
  | low (high : ℕ)

/-- What one more character means there. -/
inductive CharStep
  | fail
  | close
  | goto (st : CharState)
  | emit (e : Char)

def readHex (high : Option ℕ) (k code : ℕ) : CharStep :=
  if k < 3 then .goto (.hex high (k + 1) code)
  else
    match high with
    | none =>
      if 0xd800 ≤ code ∧ code < 0xdc00 then .goto (.low code)
      else if 0xdc00 ≤ code ∧ code < 0xe000 then .fail
      else .emit (Char.ofNat code)
    | some h =>
      if 0xdc00 ≤ code ∧ code < 0xe000 then
        .emit (Char.ofNat (0x10000 + (h - 0xd800) * 0x400 + (code - 0xdc00)))
      else .fail

def readChar : CharState → Char → CharStep
  | .plain, c =>
    if c = '"' then .close
    else if c = '\\' then .goto (.escape none)
    -- control characters have to be escaped
    else if c.toNat < 32 then .fail
    else .emit c
  | .escape high, c =>
    if c = 'u' then .goto (.hex high 0 0)
    else
      match high, simpleEscape c with
      | none, some e => .emit e
      | _, _ => .fail
  | .hex high k code, c =>
    match hexValue c with
    | none => .fail
    | some d => readHex high k (16 * code + d)
  | .low high, c => if c = '\\' then .goto (.escape (some high)) else .fail

def push (c : Char) (read : Option (List Char × List Char)) : Option (List Char × List Char) :=
  read.map fun r => (c :: r.1, r.2)

/-- The characters up to the closing quote, and what is behind it. -/
def parseChars : CharState → List Char → Option (List Char × List Char)
  | _, [] => none
  | st, c :: rest =>
    match readChar st c with
    | .fail => none
    | .close => some ([], rest)
    | .goto st => parseChars st rest
    | .emit e => push e (parseChars .plain rest)

/-! ## Numbers -/

def parseDigits (cs : List Char) : Option (List Char × List Char) :=
  if (cs.takeWhile Char.isDigit).isEmpty then none
  else some (cs.takeWhile Char.isDigit, cs.dropWhile Char.isDigit)

/-- No number but 0 starts with 0. -/
def parseInt : List Char → Option (List Char × List Char)
  | [] => none
  | c :: rest => if c = '0' then some (['0'], rest) else parseDigits (c :: rest)

def parseFrac : List Char → Option (List Char × List Char)
  | [] => some ([], [])
  | c :: rest => if c = '.' then push c (parseDigits rest) else some ([], c :: rest)

def parseSign : List Char → List Char × List Char
  | [] => ([], [])
  | c :: rest => if c = '+' ∨ c = '-' then ([c], rest) else ([], c :: rest)

def parseExp : List Char → Option (List Char × List Char)
  | [] => some ([], [])
  | c :: rest =>
    if c = 'e' ∨ c = 'E' then
      (parseDigits (parseSign rest).2).map fun r => (c :: ((parseSign rest).1 ++ r.1), r.2)
    else some ([], c :: rest)

def parseUnsigned (cs : List Char) : Option (List Char × List Char) :=
  match parseInt cs with
  | none => none
  | some (int, rest) =>
    match parseFrac rest with
    | none => none
    | some (frac, rest) => (parseExp rest).map fun r => (int ++ frac ++ r.1, r.2)

def parseNumber (cs : List Char) : Option (Value × List Char) :=
  let read := match cs with
    | '-' :: rest => push '-' (parseUnsigned rest)
    | _ => parseUnsigned cs
  read.map fun r => (.number r.1, r.2)

/-! ## Values -/

def parseLiteral (word : List Char) (v : Value) (cs : List Char) : Option (Value × List Char) :=
  if word.isPrefixOf cs then some (v, cs.drop word.length) else none

/-- A member's name, up to its colon. -/
def parseKey (cs : List Char) : Option (String × List Char) :=
  match skipWs cs with
  | [] => none
  | c :: rest =>
    if c = '"' then
      match parseChars .plain rest with
      | none => none
      | some (key, rest) =>
        match skipWs rest with
        | [] => none
        | c :: rest => if c = ':' then some (String.ofList key, rest) else none
    else none

mutual

def parseValue : ℕ → List Char → Option (Value × List Char)
  | 0, _ => none
  | n + 1, cs =>
    match skipWs cs with
    | [] => none
    | c :: rest =>
      if c = '"' then (parseChars .plain rest).map fun r => (.string (String.ofList r.1), r.2)
      else if c = '{' then
        if (skipWs rest).head? = some '}' then some (.object [], (skipWs rest).tail)
        else (parseMembers n rest).map fun r => (.object r.1, r.2)
      else if c = '[' then
        if (skipWs rest).head? = some ']' then some (.array [], (skipWs rest).tail)
        else (parseItems n rest).map fun r => (.array r.1, r.2)
      else if c = 'n' then parseLiteral "ull".toList .null rest
      else if c = 't' then parseLiteral "rue".toList (.bool true) rest
      else if c = 'f' then parseLiteral "alse".toList (.bool false) rest
      else parseNumber (c :: rest)

/-- The items of an array, up to its closing bracket. -/
def parseItems : ℕ → List Char → Option (List Value × List Char)
  | 0, _ => none
  | n + 1, cs =>
    match parseValue n cs with
    | none => none
    | some (v, rest) =>
      match skipWs rest with
      | [] => none
      | c :: rest =>
        if c = ',' then (parseItems n rest).map fun r => (v :: r.1, r.2)
        else if c = ']' then some ([v], rest)
        else none

def parseMembers : ℕ → List Char → Option (List (String × Value) × List Char)
  | 0, _ => none
  | n + 1, cs =>
    match parseKey cs with
    | none => none
    | some (key, rest) =>
      match parseValue n rest with
      | none => none
      | some (v, rest) =>
        match skipWs rest with
        | [] => none
        | c :: rest =>
          if c = ',' then (parseMembers n rest).map fun r => ((key, v) :: r.1, r.2)
          else if c = '}' then some ([(key, v)], rest)
          else none

end

/-- The text is well formed and denotes the value. -/
def Denotes (text : List Char) (v : Value) : Prop :=
  ∃ n rest, parseValue n text = some (v, rest) ∧ skipWs rest = []

/-! ## Reading the front of a longer text -/

variable {c : Char} {cs rest : List Char} {s : List Char}

@[simp] theorem skipWs_nil : skipWs [] = [] := rfl

theorem skipWs_cons (h : isWs c = false) : skipWs (c :: cs) = c :: cs := by
  simp [skipWs, h]

theorem push_eq_some {c : Char} {read : Option (List Char × List Char)} {tail : List Char}
    (h : push c read = some (s, tail)) : ∃ s', read = some (s', tail) ∧ s = c :: s' := by
  obtain ⟨⟨s', tail'⟩, hread, heq⟩ := Option.map_eq_some_iff.mp h
  obtain ⟨rfl, rfl⟩ := Prod.mk.inj heq
  exact ⟨s', hread, rfl⟩

/-- What is read of a string does not depend on what follows the closing quote. -/
theorem parseChars_append {st : CharState} {tail : List Char} (rest : List Char)
    (h : parseChars st cs = some (s, tail)) :
    parseChars st (cs ++ rest) = some (s, tail ++ rest) := by
  induction cs generalizing st s with
  | nil => simp [parseChars] at h
  | cons c cs ih =>
    rw [List.cons_append]
    rw [parseChars] at h ⊢
    split at h
    · simp at h
    · obtain ⟨rfl, rfl⟩ := Prod.mk.inj (Option.some.inj h)
      rfl
    · exact ih h
    · obtain ⟨s', hs', rfl⟩ := push_eq_some h
      simp only [ih hs', push, Option.map_some]

theorem parseChars_plain_cons (hquote : c ≠ '"') (hslash : c ≠ '\\') (hcontrol : 32 ≤ c.toNat) :
    parseChars .plain (c :: rest) = push c (parseChars .plain rest) := by
  have hread : readChar .plain c = .emit c := by
    simp [readChar, hquote, hslash, Nat.not_lt.mpr hcontrol]
  rw [parseChars, hread]

theorem parseChars_quote : parseChars .plain ('"' :: rest) = some ([], rest) := rfl

/-- Characters that stand for themselves in a string. -/
def Unescaped (key : List Char) : Prop := ∀ c ∈ key, c ≠ '"' ∧ c ≠ '\\' ∧ 32 ≤ c.toNat

instance : DecidablePred Unescaped := fun key => List.decidableBAll _ key

theorem parseChars_unescaped {key : List Char} (hkey : Unescaped key) :
    parseChars .plain (key ++ '"' :: rest) = some (key, rest) := by
  induction key with
  | nil => rfl
  | cons c key ih =>
    obtain ⟨⟨hquote, hslash, hcontrol⟩, hkey⟩ := List.forall_mem_cons.mp hkey
    rw [List.cons_append, parseChars_plain_cons hquote hslash hcontrol, ih hkey]
    rfl

theorem parseKey_unescaped {key : List Char} (hkey : Unescaped key) :
    parseKey ('"' :: (key ++ '"' :: ':' :: rest)) = some (String.ofList key, rest) := by
  rw [parseKey, skipWs_cons (by decide)]
  simp only [if_true, parseChars_unescaped hkey]
  rw [skipWs_cons (by decide)]
  rfl

/-! ### Numbers -/

/-- The text goes on with one of the characters that end a value. -/
def EndsValue (rest : List Char) : Prop :=
  ∃ c tail, rest = c :: tail ∧ (c = ',' ∨ c = ']' ∨ c = '}')

theorem parseDigits_append {ds : List Char} (hne : ds ≠ []) (hds : ∀ c ∈ ds, c.isDigit)
    (hrest : EndsValue rest) : parseDigits (ds ++ rest) = some (ds, rest) := by
  obtain ⟨c, tail, rfl, hc⟩ := hrest
  have hdigit : c.isDigit = false := by
    rcases hc with rfl | rfl | rfl <;> decide
  have htake : (ds ++ c :: tail).takeWhile Char.isDigit = ds := by
    rw [List.takeWhile_append_of_pos hds, List.takeWhile_cons_of_neg (by simp [hdigit]),
      List.append_nil]
  have hdrop : (ds ++ c :: tail).dropWhile Char.isDigit = c :: tail := by
    rw [List.dropWhile_append_of_pos hds, List.dropWhile_cons_of_neg (by simp [hdigit])]
  rw [parseDigits, htake, hdrop, if_neg (by simpa using hne)]

theorem parseInt_toDigits (n : ℕ) (hrest : EndsValue rest) :
    parseInt (Nat.toDigits 10 n ++ rest) = some (Nat.toDigits 10 n, rest) := by
  cases n with
  | zero => rfl
  | succ n =>
    obtain ⟨c, ds, heq, hc⟩ := Decimal.exists_toDigits (Nat.succ_pos n)
    have hdigits : ∀ c ∈ Nat.toDigits 10 (n + 1), c.isDigit := fun c hc =>
      Nat.isDigit_of_mem_toDigits (by decide) (by decide) hc
    have hparse := parseDigits_append (by simp [heq]) hdigits hrest
    rw [heq] at hparse ⊢
    rw [List.cons_append, parseInt, if_neg hc]
    exact hparse

theorem parseUnsigned_toDigits (n : ℕ) (hrest : EndsValue rest) :
    parseUnsigned (Nat.toDigits 10 n ++ rest) = some (Nat.toDigits 10 n, rest) := by
  obtain ⟨c, tail, rfl, hc⟩ := id hrest
  have hfrac : parseFrac (c :: tail) = some ([], c :: tail) := by
    rcases hc with rfl | rfl | rfl <;> rfl
  have hexp : parseExp (c :: tail) = some ([], c :: tail) := by
    rcases hc with rfl | rfl | rfl <;> rfl
  rw [parseUnsigned, parseInt_toDigits n hrest]
  simp [hfrac, hexp]

/-! ### Values -/

theorem parseValue_toDigits (k n : ℕ) (hrest : EndsValue rest) :
    parseValue (k + 1) (Nat.toDigits 10 n ++ rest) =
      some (.number (Nat.toDigits 10 n), rest) := by
  have hparse := parseUnsigned_toDigits n hrest
  obtain ⟨c, ds, heq⟩ := List.exists_cons_of_ne_nil (Nat.toDigits_ne_nil (b := 10) (n := n))
  have hdigit : c.isDigit := Nat.isDigit_of_mem_toDigits (b := 10) (n := n) (by decide) (by decide)
    (heq ▸ List.mem_cons_self)
  have hne (c' : Char) (hc' : c'.isDigit = false) : c ≠ c' := by
    rintro rfl
    simp [hdigit] at hc'
  have hws : isWs c = false := by
    simp [isWs, hne ' ' (by decide), hne '\t' (by decide), hne '\n' (by decide),
      hne '\r' (by decide)]
  rw [heq, List.cons_append] at hparse
  rw [heq, List.cons_append, parseValue, skipWs_cons hws]
  simp only [hne '"' (by decide), hne '\x7b' (by decide), hne '[' (by decide), hne 'n' (by decide),
    hne 't' (by decide), hne 'f' (by decide), if_false]
  rw [parseNumber]
  · rw [hparse]
    rfl
  · intro rest' h
    exact hne '-' (by decide) (List.cons.inj h).1

theorem parseValue_null (k : ℕ) :
    parseValue (k + 1) ("null".toList ++ rest) = some (.null, rest) := by
  show parseValue (k + 1) ('n' :: 'u' :: 'l' :: 'l' :: rest) = _
  rw [parseValue, skipWs_cons (by decide)]
  simp [parseLiteral]

/-- The text is a quoted string that stands for `s`. -/
def IsStringLiteral (s : String) (text : List Char) : Prop :=
  ∃ body, text = '"' :: body ∧ parseChars .plain body = some (s.toList, [])

/-- The text is an array of such strings, without blanks. -/
def IsStringArray (items : List String) (text : List Char) : Prop :=
  ∃ texts, List.Forall₂ IsStringLiteral items texts ∧
    text = '[' :: ([','].intercalate texts ++ [']'])

variable {text : List Char} {v : Value} {key : List Char} {n : ℕ}

theorem parseValue_stringLiteral {s : String} (k : ℕ) (h : IsStringLiteral s text) :
    parseValue (k + 1) (text ++ rest) = some (.string s, rest) := by
  obtain ⟨body, rfl, hbody⟩ := h
  rw [List.cons_append, parseValue, skipWs_cons (by decide)]
  simp [parseChars_append rest hbody]

theorem parseItems_stringLiterals {items : List String} {texts : List (List Char)}
    (rest : List Char) (h : List.Forall₂ IsStringLiteral items texts) (hne : items ≠ [])
    (hn : items.length < n) :
    parseItems n ([','].intercalate texts ++ ']' :: rest) = some (items.map .string, rest) := by
  induction h generalizing n with
  | nil => exact absurd rfl hne
  | @cons item text items texts hitem htexts ih =>
    rw [List.length_cons] at hn
    obtain ⟨k, rfl⟩ : ∃ k, n = k + 2 := ⟨n - 2, by omega⟩
    rw [parseItems]
    cases htexts with
    | nil =>
      rw [List.intercalate_singleton, parseValue_stringLiteral k hitem]
      simp (disch := decide) [skipWs_cons]
    | cons hitem' htexts' =>
      rw [List.intercalate_cons_cons, List.append_assoc, List.append_assoc,
        parseValue_stringLiteral k hitem]
      have hrest := ih (n := k + 1) (by simp) (by omega)
      simp (disch := decide) [skipWs_cons, hrest]

theorem parseValue_stringArray {items : List String} (h : IsStringArray items text)
    (hn : items.length < n) : parseValue (n + 1) (text ++ rest) =
      some (.array (items.map .string), rest) := by
  obtain ⟨texts, htexts, rfl⟩ := h
  rw [List.cons_append, List.append_assoc, parseValue, skipWs_cons (by decide)]
  simp only [List.singleton_append]
  by_cases hne : items = []
  · subst hne
    cases htexts
    simp (disch := decide) [skipWs_cons]
  · have hitems := parseItems_stringLiterals rest htexts hne hn
    -- the first item starts with a quote
    have hhead : ∃ cs, [','].intercalate texts ++ ']' :: rest = '"' :: cs := by
      cases htexts with
      | nil => exact absurd rfl hne
      | cons hitem htexts' =>
        obtain ⟨body, rfl, -⟩ := hitem
        cases htexts' with
        | nil => exact ⟨_, rfl⟩
        | cons => exact ⟨_, by rw [List.intercalate_cons_cons]; rfl⟩
    obtain ⟨cs, hcs⟩ := hhead
    rw [hcs] at hitems ⊢
    simp (disch := decide) [skipWs_cons, hitems]

/-! ### Escaping -/

/-- What has to be escaped, in its shortest form. -/
def escapeChar (c : Char) : List Char :=
  if c = '"' ∨ c = '\\' then ['\\', c]
  else if c = Char.ofNat 8 then ['\\', 'b']
  else if c = Char.ofNat 12 then ['\\', 'f']
  else if c = '\n' then ['\\', 'n']
  else if c = '\r' then ['\\', 'r']
  else if c = '\t' then ['\\', 't']
  else if c.toNat < 32 then
    ['\\', 'u', '0', '0', Nat.digitChar (c.toNat / 16), Nat.digitChar (c.toNat % 16)]
  else [c]

def stringLiteral (s : String) : List Char := '"' :: (s.toList.flatMap escapeChar ++ ['"'])

theorem parseChars_control (hcontrol : c.toNat < 32) :
    parseChars .plain ('\\' :: 'u' :: '0' :: '0' :: Nat.digitChar (c.toNat / 16) ::
      Nat.digitChar (c.toNat % 16) :: rest) = push c (parseChars .plain rest) := by
  have hhex : ∀ d < 16, hexValue (Nat.digitChar d) = some d := by decide
  have hzero : hexValue '0' = some 0 := by decide
  have hcode : 16 * (c.toNat / 16) + c.toNat % 16 = c.toNat := Nat.div_add_mod _ _
  have hsmall : ¬ 0xd800 ≤ c.toNat := by omega
  have hsmall' : ¬ 0xdc00 ≤ c.toNat := by omega
  simp [parseChars, readChar, readHex, hzero, hhex (c.toNat / 16) (by omega),
    hhex (c.toNat % 16) (by omega), hcode, hsmall, hsmall', Char.ofNat_toNat]

theorem parseChars_escapeChar (c : Char) (rest : List Char) :
    parseChars .plain (escapeChar c ++ rest) = push c (parseChars .plain rest) := by
  unfold escapeChar
  split
  next h => rcases h with rfl | rfl <;> rfl
  next hplain =>
    rw [not_or] at hplain
    split
    next h => subst h; rfl
    split
    next h => subst h; rfl
    split
    next h => subst h; rfl
    split
    next h => subst h; rfl
    split
    next h => subst h; rfl
    split
    next hcontrol => exact parseChars_control hcontrol
    next hcontrol =>
      exact parseChars_plain_cons hplain.1 hplain.2 (Nat.le_of_not_lt hcontrol)

theorem isStringLiteral_stringLiteral (s : String) : IsStringLiteral s (stringLiteral s) := by
  refine ⟨_, rfl, ?_⟩
  induction s.toList with
  | nil => rfl
  | cons c cs ih =>
    rw [List.flatMap_cons, List.append_assoc, parseChars_escapeChar, ih]
    rfl

theorem isStringArray_stringLiterals (items : List String) :
    IsStringArray items ('[' :: ([','].intercalate (items.map stringLiteral) ++ [']'])) := by
  refine ⟨_, ?_, rfl⟩
  rw [List.forall₂_map_right_iff]
  exact List.forall₂_same.mpr fun s _ => isStringLiteral_stringLiteral s

/-! ### Objects -/

def memberText (key value : List Char) : List Char := '"' :: (key ++ '"' :: ':' :: value)

theorem parseKey_memberText (hkey : Unescaped key) :
    parseKey (memberText key text ++ rest) = some (String.ofList key, text ++ rest) := by
  rw [memberText, List.cons_append, List.append_assoc]
  exact parseKey_unescaped hkey

-- the member and its value take a unit each
theorem fuel_of_parseMembers {read : List (String × Value) × List Char} (hkey : Unescaped key)
    (h : parseMembers n (memberText key text ++ rest) = some read) : ∃ m, n = m + 2 := by
  match n with
  | 0 => simp [parseMembers] at h
  | 1 =>
    rw [parseMembers, parseKey_memberText hkey] at h
    simp [parseValue] at h
  | m + 2 => exact ⟨m, rfl⟩

theorem parseMembers_comma (hkey : Unescaped key)
    (hv : parseValue n (text ++ ',' :: rest) = some (v, ',' :: rest)) :
    parseMembers (n + 1) (memberText key text ++ ',' :: rest) =
      (parseMembers n rest).map fun r => ((String.ofList key, v) :: r.1, r.2) := by
  rw [parseMembers, parseKey_memberText hkey]
  simp (disch := decide) [hv, skipWs_cons]

/-- Where the members are read to the end, so are those behind the first. -/
theorem exists_of_parseMembers_comma {read : List (String × Value) × List Char}
    (hkey : Unescaped key)
    (hv : ∀ k, parseValue (k + 1) (text ++ ',' :: rest) = some (v, ',' :: rest))
    (h : parseMembers n (memberText key text ++ ',' :: rest) = some read) :
    ∃ m read', parseMembers m rest = some read' ∧ read'.2 = read.2 := by
  obtain ⟨m, rfl⟩ := fuel_of_parseMembers hkey h
  rw [parseMembers_comma hkey (hv m)] at h
  obtain ⟨read', hread', rfl⟩ := Option.map_eq_some_iff.mp h
  exact ⟨m + 1, read', hread', rfl⟩

theorem parseMembers_close (hkey : Unescaped key)
    (hv : parseValue n (text ++ '\x7d' :: rest) = some (v, '\x7d' :: rest)) :
    parseMembers (n + 1) (memberText key text ++ '\x7d' :: rest) =
      some ([(String.ofList key, v)], rest) := by
  rw [parseMembers, parseKey_memberText hkey]
  simp (disch := decide) [hv, skipWs_cons]

theorem parseValue_object :
    parseValue (n + 1) ('\x7b' :: (memberText key text ++ rest)) =
      (parseMembers n (memberText key text ++ rest)).map fun r => (.object r.1, r.2) := by
  rw [parseValue, skipWs_cons (by decide), memberText]
  simp (disch := decide) [skipWs_cons]

/-! ### A quoted string in quotes -/

theorem parseChars_plain_eq_some {tail : List Char}
    (h : parseChars .plain (c :: cs) = some (s, tail)) :
    c = '"' ∧ cs = tail ∨ c = '\\' ∨
      c ≠ '"' ∧ 32 ≤ c.toNat ∧ ∃ s', parseChars .plain cs = some (s', tail) := by
  by_cases hquote : c = '"'
  · subst hquote
    exact .inl ⟨rfl, (Prod.mk.inj (Option.some.inj h)).2⟩
  by_cases hslash : c = '\\'
  · exact .inr (.inl hslash)
  refine .inr (.inr ⟨hquote, ?_⟩)
  by_cases hcontrol : 32 ≤ c.toNat
  · rw [parseChars_plain_cons hquote hslash hcontrol] at h
    obtain ⟨s', hs', -⟩ := push_eq_some h
    exact ⟨hcontrol, s', hs'⟩
  · have hread : readChar .plain c = .fail := by
      simp [readChar, hquote, hslash, Nat.lt_of_not_le hcontrol]
    rw [parseChars, hread] at h
    simp at h

/-- The first character of a string's inside that is not a blank: the closing quote is the last one,
and any other quote is behind a backslash. -/
theorem skipWs_inside (more : List Char) (h : parseChars .plain cs = some (s, [])) :
    ∃ c inside, skipWs (cs ++ more) = c :: (inside ++ more) ∧
      (c = '"' ∧ inside = [] ∨ c = '\\' ∨
        c ≠ '"' ∧ ∃ s', parseChars .plain inside = some (s', [])) := by
  induction cs generalizing s with
  | nil => simp [parseChars] at h
  | cons c cs ih =>
    have hcases := parseChars_plain_eq_some h
    cases hws : isWs c with
    | false =>
      refine ⟨c, cs, skipWs_cons hws, ?_⟩
      rcases hcases with hclose | hslash | ⟨hquote, -, hs⟩
      · exact .inl hclose
      · exact .inr (.inl hslash)
      · exact .inr (.inr ⟨hquote, hs⟩)
    | true =>
      rcases hcases with ⟨rfl, -⟩ | rfl | ⟨-, -, s', hs'⟩
      · exact absurd hws (by decide)
      · exact absurd hws (by decide)
      · rw [List.cons_append, skipWs, List.dropWhile_cons_of_pos hws]
        exact ih hs'

-- no member starts inside the string, and the closing quotes are no name
theorem parseKey_inside (h : parseChars .plain cs = some (s, [])) :
    parseKey (cs ++ '"' :: ',' :: rest) = none := by
  obtain ⟨c, inside, hskip, hc⟩ := skipWs_inside ('"' :: ',' :: rest) h
  simp only [parseKey, hskip]
  rcases hc with ⟨rfl, rfl⟩ | rfl | ⟨hquote, -⟩
  · simp (disch := decide) [parseChars_quote, skipWs_cons]
  · simp
  · simp [hquote]

/-- With a quoted string in quotes for a value, an object is not well formed: whatever the string
starts with, the members cannot be read up to the end. -/
theorem parseMembers_requoted {str : String} {literal : List Char}
    {read : List (String × Value) × List Char} (hkey : Unescaped key)
    (hliteral : IsStringLiteral str literal)
    (h : parseMembers n (memberText key ('"' :: (literal ++ ['"'])) ++ ',' :: rest) = some read) :
    skipWs read.2 ≠ [] := by
  obtain ⟨body, rfl, hbody⟩ := hliteral
  obtain ⟨c, inside, hskip, hc⟩ := skipWs_inside ('"' :: ',' :: rest) hbody
  -- the value read is the empty string
  have hvalue (m : ℕ) : parseValue (m + 1) ('"' :: ('"' :: body ++ ['"']) ++ ',' :: rest) =
      some (.string "", body ++ '"' :: ',' :: rest) := by
    rw [List.cons_append, parseValue, skipWs_cons (by decide)]
    simp [parseChars_quote]
  obtain ⟨m, rfl⟩ := fuel_of_parseMembers hkey h
  rw [parseMembers, parseKey_memberText hkey] at h
  simp only [hvalue, hskip] at h
  by_cases hcomma : c = ','
  · -- a comma inside the string is followed by no name
    rcases hc with ⟨rfl, -⟩ | rfl | ⟨-, s', hs'⟩
    · simp at hcomma
    · simp at hcomma
    · rw [if_pos hcomma, parseMembers, parseKey_inside hs'] at h
      simp at h
  · rw [if_neg hcomma] at h
    split at h
    next hbrace =>
      -- a brace inside the string leaves its closing quote behind
      obtain rfl := Option.some.inj h
      rcases hc with ⟨rfl, -⟩ | rfl | ⟨-, s', hs'⟩
      · simp at hbrace
      · simp at hbrace
      · obtain ⟨c', inside', hskip', -⟩ := skipWs_inside ('"' :: ',' :: rest) hs'
        simp [hskip']
    next => simp at h

end Json
