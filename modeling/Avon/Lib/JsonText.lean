import Avon.Json
import Avon.Lib.Hex
import Mathlib.Data.Char
import Mathlib.Data.List.Lex
import Mathlib.Data.List.Sort
import Mathlib.Data.Nat.Digits.Defs

/-!
# JSON values as text

`print` writes a value without blanks and in ASCII, and `sortKeys` puts the keys in order.
`print_injective`: the text determines the value, as long as its floats are written as floats. The
proof is by cancellation of equal texts, up to what follows them.
-/

set_option autoImplicit false

namespace Avon.Lib.JsonText

/-! ### Numbers -/

def intText (n : ℤ) : List Char :=
  if n < 0 then '-' :: Nat.toDigits 10 n.natAbs else Nat.toDigits 10 n.natAbs

/-- The characters of numbers, with those of `Infinity` and `NaN`. -/
def isNumberChar (c : Char) : Bool := c.isDigit ||
    ['-', '+', '.', 'e', 'I', 'n', 'f', 'i', 't', 'y', 'N', 'a'].contains c

def isFloatChar (c : Char) : Bool := ['.', 'e', 'I', 'N'].contains c

def startsNumber (c : Char) : Bool := c.isDigit || ['-', 'I', 'N'].contains c

/-- The text of a float: it is made of the characters of numbers and is no integer. -/
def isFloatText (cs : List Char) : Bool :=
  cs.all isNumberChar && cs.any isFloatChar && cs.head?.any startsNumber

theorem mem_intText {n : ℤ} {c : Char} (h : c ∈ intText n) : c = '-' ∨ c.isDigit = true := by
  have hdigit : ∀ c ∈ Nat.toDigits 10 n.natAbs, c.isDigit = true := fun c hc =>
    Nat.isDigit_of_mem_toDigits (by decide) (Nat.le_refl 10) hc
  unfold intText at h
  split at h
  · exact (List.mem_cons.mp h).imp_right (hdigit c)
  · exact .inr (hdigit c h)

theorem intText_injective {n m : ℤ} (h : intText n = intText m) : n = m := by
  have hdigits : ∀ {a b : ℕ}, Nat.toDigits 10 a = Nat.toDigits 10 b → a = b := by
    intro a b hab
    have hread := congrArg (fun ds => Nat.ofDigitChars 10 ds 0) hab
    simpa [Nat.ofDigitChars_toDigits] using hread
  -- A digit is not the sign.
  have hsign : ∀ {a b : ℕ}, '-' :: Nat.toDigits 10 a ≠ Nat.toDigits 10 b := by
    intro a b hab
    have hmem : '-' ∈ Nat.toDigits 10 b := hab ▸ List.mem_cons_self
    exact absurd (Nat.isDigit_of_mem_toDigits (by decide) (Nat.le_refl 10) hmem) (by decide)
  unfold intText at h
  split at h <;> split at h
  · have habs := hdigits (List.cons.inj h).2
    omega
  · exact absurd h hsign
  · exact absurd h.symm hsign
  · have habs := hdigits h
    omega

/-! ### Strings -/

def hex4 (n : ℕ) : List Char :=
  [Nat.digitChar (n / 4096 % 16), Nat.digitChar (n / 256 % 16), Nat.digitChar (n / 16 % 16),
   Nat.digitChar (n % 16)]

/-- A printable ASCII character other than the quote and the backslash. -/
def plain (c : Char) : Bool := 32 ≤ c.toNat && c.toNat ≤ 126 && c.toNat != 34 && c.toNat != 92

/-- A character in a string. What is not printable ASCII is written in UTF-16. -/
def escape (c : Char) : List Char :=
  if plain c then [c]
  else if c = '"' then ['\\', '"']
  else if c = '\\' then ['\\', '\\']
  else if c = '\n' then ['\\', 'n']
  else if c = '\r' then ['\\', 'r']
  else if c = '\t' then ['\\', 't']
  else if c = '\x0c' then ['\\', 'f']
  else if c = '\x08' then ['\\', 'b']
  else if c.toNat < 65536 then '\\' :: 'u' :: hex4 c.toNat
  else
    '\\' :: 'u' :: hex4 (55296 + (c.toNat - 65536) / 1024) ++
      '\\' :: 'u' :: hex4 (56320 + (c.toNat - 65536) % 1024)

def readHex4 : List Char → Option (ℕ × List Char)
  | a :: b :: c :: d :: rest => do
    return (4096 * (← Hex.digitVal a) + 256 * (← Hex.digitVal b) + 16 * (← Hex.digitVal c) +
      (← Hex.digitVal d), rest)
  | _ => none

theorem readHex4_hex4 {n : ℕ} (h : n < 65536) (rest : List Char) :
    readHex4 (hex4 n ++ rest) = some (n, rest) := by
  have hval : ∀ m, Hex.digitVal (Nat.digitChar (m % 16)) = some (m % 16) := fun m =>
    Hex.digitVal_digitChar _ (Nat.mod_lt _ (by decide))
  have hsum : 4096 * (n / 4096 % 16) + 256 * (n / 256 % 16) + 16 * (n / 16 % 16) + n % 16 = n := by
    omega
  simp [readHex4, hex4, hval, hsum]

/-- The character that a letter after a backslash stands for. -/
def letter (c : Char) : Option Char :=
  if c = '"' then some '"'
  else if c = '\\' then some '\\'
  else if c = 'n' then some '\n'
  else if c = 'r' then some '\r'
  else if c = 't' then some '\t'
  else if c = 'f' then some '\x0c'
  else if c = 'b' then some '\x08'
  else none

/-- What follows `\u`: one unit of UTF-16, or the first of two. -/
def readUtf16 (cs : List Char) : Option (Char × List Char) :=
  match readHex4 cs with
  | none => none
  | some (n, rest) =>
    if 55296 ≤ n ∧ n < 56320 then
      (readHex4 (rest.drop 2)).map fun low =>
        (Char.ofNat (65536 + (n - 55296) * 1024 + (low.1 - 56320)), low.2)
    else some (Char.ofNat n, rest)

def unescape : List Char → Option (Char × List Char)
  | [] => none
  | c :: rest =>
    if c = '\\' then
      match rest with
      | [] => none
      | k :: rest => if k = 'u' then readUtf16 rest else (letter k).map fun c => (c, rest)
    else some (c, rest)

theorem readUtf16_one {c : Char} (h : c.toNat < 65536) (rest : List Char) :
    readUtf16 (hex4 c.toNat ++ rest) = some (c, rest) := by
  -- A character is not one half of a surrogate pair.
  have hvalid : ¬ (55296 ≤ c.toNat ∧ c.toNat < 56320) := by
    have := c.valid
    unfold UInt32.isValidChar Nat.isValidChar at this
    have : c.toNat = c.val.toNat := rfl
    omega
  unfold readUtf16
  rw [readHex4_hex4 h]
  simp only [if_neg hvalid, Char.ofNat_toNat]

theorem readUtf16_two {high low : ℕ} (hhigh : 55296 ≤ high ∧ high < 56320) (hlow : low < 65536)
    (rest : List Char) :
    readUtf16 (hex4 high ++ '\\' :: 'u' :: (hex4 low ++ rest)) =
      some (Char.ofNat (65536 + (high - 55296) * 1024 + (low - 56320)), rest) := by
  unfold readUtf16
  rw [readHex4_hex4 (by omega)]
  simp only [List.drop_succ_cons, List.drop_zero]
  rw [if_pos hhigh, readHex4_hex4 hlow, Option.map_some]

theorem readUtf16_pair {c : Char} (h : 65536 ≤ c.toNat) (rest : List Char) :
    readUtf16 (hex4 (55296 + (c.toNat - 65536) / 1024) ++
      '\\' :: 'u' :: (hex4 (56320 + (c.toNat - 65536) % 1024) ++ rest)) = some (c, rest) := by
  have hmax : c.toNat < 1114112 := by
    have := c.valid
    unfold UInt32.isValidChar Nat.isValidChar at this
    have : c.toNat = c.val.toNat := rfl
    omega
  obtain ⟨high, hhigh⟩ : ∃ high, high = 55296 + (c.toNat - 65536) / 1024 := ⟨_, rfl⟩
  obtain ⟨low, hlow⟩ : ∃ low, low = 56320 + (c.toNat - 65536) % 1024 := ⟨_, rfl⟩
  have hback : 65536 + (high - 55296) * 1024 + (low - 56320) = c.toNat := by omega
  rw [← hhigh, ← hlow, readUtf16_two (by omega) (by omega), hback, Char.ofNat_toNat]

theorem unescape_escape (c : Char) (rest : List Char) :
    unescape (escape c ++ rest) = some (c, rest) := by
  unfold escape
  by_cases h0 : plain c = true
  · have hne : c ≠ '\\' := by
      rintro rfl
      exact absurd h0 (by decide)
    simp [h0, unescape, hne]
  by_cases h1 : c = '"'
  · simp [h1, unescape, letter, plain]
  by_cases h2 : c = '\\'
  · simp [h2, unescape, letter, plain]
  by_cases h3 : c = '\n'
  · simp [h3, unescape, letter, plain]
  by_cases h4 : c = '\r'
  · simp [h4, unescape, letter, plain]
  by_cases h5 : c = '\t'
  · simp [h5, unescape, letter, plain]
  by_cases h6 : c = '\x0c'
  · simp [h6, unescape, letter, plain]
  by_cases h7 : c = '\x08'
  · simp [h7, unescape, letter, plain]
  simp only [if_neg h0, if_neg h1, if_neg h2, if_neg h3, if_neg h4, if_neg h5, if_neg h6, if_neg h7]
  by_cases hlt : c.toNat < 65536
  · rw [if_pos hlt]
    simp only [List.cons_append, unescape, if_true, readUtf16_one hlt]
  rw [if_neg hlt]
  simp only [List.cons_append, List.append_assoc, unescape, if_true,
    readUtf16_pair (Nat.not_lt.mp hlt)]

theorem head_escape_ne (c : Char) (rest x : List Char) : escape c ++ rest ≠ '"' :: x := by
  intro h
  have hread := unescape_escape c rest
  rw [h] at hread
  simp only [unescape, Char.reduceEq, if_false, Option.some.injEq, Prod.mk.injEq] at hread
  -- A quote itself is written with a backslash in front.
  obtain ⟨rfl, -⟩ := hread
  simp [escape, plain] at h

def printString (s : String) : List Char := '"' :: (s.toList.flatMap escape ++ ['"'])

theorem escaped_cancel {cs ds x y : List Char}
    (h : cs.flatMap escape ++ '"' :: x = ds.flatMap escape ++ '"' :: y) : cs = ds ∧ x = y := by
  induction cs generalizing ds with
  | nil =>
    cases ds with
    | nil => exact ⟨rfl, (List.cons.inj h).2⟩
    | cons d ds =>
      rw [List.flatMap_cons, List.append_assoc] at h
      exact absurd h.symm (head_escape_ne d _ x)
  | cons c cs ih =>
    cases ds with
    | nil =>
      rw [List.flatMap_cons, List.append_assoc] at h
      exact absurd h (head_escape_ne c _ y)
    | cons d ds =>
      rw [List.flatMap_cons, List.flatMap_cons, List.append_assoc, List.append_assoc] at h
      have hread := congrArg unescape h
      rw [unescape_escape, unescape_escape, Option.some.injEq, Prod.mk.injEq] at hread
      obtain ⟨rfl, hrest⟩ := hread
      obtain ⟨rfl, rfl⟩ := ih hrest
      exact ⟨rfl, rfl⟩

theorem printString_cancel {s t : String} {x y : List Char}
    (h : printString s ++ x = printString t ++ y) : s = t ∧ x = y := by
  simp only [printString, List.cons_append, List.append_assoc, List.nil_append, List.cons.injEq,
    true_and] at h
  obtain ⟨hst, rfl⟩ := escaped_cancel h
  exact ⟨String.toList_injective hst, rfl⟩

/-! ### Values -/

mutual

def print : Json → List Char
  | .null => ['n', 'u', 'l', 'l']
  | .bool true => ['t', 'r', 'u', 'e']
  | .bool false => ['f', 'a', 'l', 's', 'e']
  | .int n => intText n
  | .float text => text.toList
  | .string s => printString s
  | .array items => '[' :: printItems true items
  | .object fields => '{' :: printFields true fields

/-- What follows in an array. There is no comma before the first item. -/
def printItems (first : Bool) : List Json → List Char
  | [] => [']']
  | item :: items =>
    (if first then [] else [',']) ++ print item ++ printItems false items

def printFields (first : Bool) : List (String × Json) → List Char
  | [] => ['}']
  | (key, value) :: fields =>
    (if first then [] else [',']) ++ printString key ++ ':' :: print value ++
      printFields false fields

end

/-! ### Scalars and keys -/

mutual

/-- The scalars of a value, with the keys of its objects as strings. -/
def scalars : Json → List Json
  | .array items => scalarsItems items
  | .object fields => scalarsFields fields
  | scalar => [scalar]

def scalarsItems : List Json → List Json
  | [] => []
  | item :: items => scalars item ++ scalarsItems items

def scalarsFields : List (String × Json) → List Json
  | [] => []
  | (key, value) :: fields => .string key :: scalars value ++ scalarsFields fields

end

mutual

def mapFloats (f : String → Json) : Json → Json
  | .float text => f text
  | .array items => .array (mapItems f items)
  | .object fields => .object (mapFields f fields)
  | scalar => scalar

def mapItems (f : String → Json) : List Json → List Json
  | [] => []
  | item :: items => mapFloats f item :: mapItems f items

def mapFields (f : String → Json) : List (String × Json) → List (String × Json)
  | [] => []
  | (key, value) :: fields => (key, mapFloats f value) :: mapFields f fields

end

def KeyLe (f g : String × Json) : Prop := f.1.toList ≤ g.1.toList

instance : DecidableRel KeyLe := fun f g => inferInstanceAs (Decidable (f.1.toList ≤ g.1.toList))

mutual

def sortKeys : Json → Json
  | .array items => .array (sortItems items)
  | .object fields => .object ((sortFields fields).insertionSort KeyLe)
  | scalar => scalar

def sortItems : List Json → List Json
  | [] => []
  | item :: items => sortKeys item :: sortItems items

def sortFields : List (String × Json) → List (String × Json)
  | [] => []
  | (key, value) :: fields => (key, sortKeys value) :: sortFields fields

end

def FloatsOk (j : Json) : Prop := ∀ text, .float text ∈ scalars j → isFloatText text.toList = true

theorem induct {P : Json → Prop} (null : P .null) (bool : ∀ b, P (.bool b)) (int : ∀ n, P (.int n))
    (float : ∀ text, P (.float text)) (string : ∀ s, P (.string s))
    (array : ∀ items, (∀ item ∈ items, P item) → P (.array items))
    (object : ∀ fields : List (String × Json), (∀ f ∈ fields, P f.2) → P (.object fields))
    (j : Json) : P j := by
  refine @Json.rec P (fun items => ∀ item ∈ items, P item) (fun fields => ∀ f ∈ fields, P f.2)
    (fun f => P f.2) null bool int float string array object ?_ ?_ ?_ ?_ ?_ j
  · intro item hitem
    exact absurd hitem List.not_mem_nil
  · intro head tail hhead htail item hitem
    rcases List.mem_cons.mp hitem with rfl | hmem
    · exact hhead
    · exact htail item hmem
  · intro f hf
    exact absurd hf List.not_mem_nil
  · intro head tail hhead htail f hf
    rcases List.mem_cons.mp hf with rfl | hmem
    · exact hhead
    · exact htail f hmem
  · intro key value hvalue
    exact hvalue

variable {items : List Json} {fields : List (String × Json)} {j a b : Json} {cs s t : List Char}
  {f : String → Json} {scalar : Json} {first : Bool} {c : Char}

theorem mem_scalarsItems : scalar ∈ scalarsItems items ↔ ∃ item ∈ items, scalar ∈ scalars item := by
  induction items with
  | nil => simp [scalarsItems]
  | cons item items ih => simp [scalarsItems, ih]

theorem mem_scalarsFields : scalar ∈ scalarsFields fields ↔
      ∃ f ∈ fields, scalar = .string f.1 ∨ scalar ∈ scalars f.2 := by
  induction fields with
  | nil => simp [scalarsFields]
  | cons f fields ih => simp [scalarsFields, ih, or_assoc]

theorem sortItems_eq_map (items : List Json) : sortItems items = items.map sortKeys := by
  induction items with
  | nil => rfl
  | cons item items ih => rw [sortItems, List.map_cons, ih]

theorem sortFields_eq_map (fields : List (String × Json)) :
    sortFields fields = fields.map fun f => (f.1, sortKeys f.2) := by
  induction fields with
  | nil => rfl
  | cons f fields ih => rw [sortFields, List.map_cons, ih]

theorem mapItems_eq_map (f : String → Json) (items : List Json) :
    mapItems f items = items.map (mapFloats f) := by
  induction items with
  | nil => rfl
  | cons item items ih => rw [mapItems, List.map_cons, ih]

theorem mapFields_eq_map (f : String → Json) (fields : List (String × Json)) :
    mapFields f fields = fields.map fun field => (field.1, mapFloats f field.2) := by
  induction fields with
  | nil => rfl
  | cons field fields ih => rw [mapFields, List.map_cons, ih]

theorem mem_scalars_sortKeys (scalar j : Json) :
    scalar ∈ scalars (sortKeys j) ↔ scalar ∈ scalars j := by
  induction j using induct with
  | null | bool | int | float | string => rfl
  | array items ih =>
    simp only [sortKeys, scalars, mem_scalarsItems, sortItems_eq_map, List.mem_map,
      exists_exists_and_eq_and]
    exact exists_congr fun item => and_congr_right fun hmem => ih item hmem
  | object fields ih =>
    simp only [sortKeys, scalars, mem_scalarsFields, sortFields_eq_map,
      (List.perm_insertionSort KeyLe _).mem_iff, List.mem_map, exists_exists_and_eq_and]
    exact exists_congr fun f => and_congr_right fun hmem => or_congr_right (ih f hmem)

theorem FloatsOk.sortKeys (h : FloatsOk j) : FloatsOk (sortKeys j) := fun text hmem =>
  h text ((mem_scalars_sortKeys _ j).mp hmem)

theorem FloatsOk.item (h : FloatsOk (.array items)) :
    ∀ item ∈ items, FloatsOk item := fun item hitem text hmem =>
  h text (mem_scalarsItems.mpr ⟨item, hitem, hmem⟩)

theorem FloatsOk.field (h : FloatsOk (.object fields)) :
    ∀ f ∈ fields, FloatsOk f.2 := fun f hf text hmem =>
  h text (mem_scalarsFields.mpr ⟨f, hf, .inr hmem⟩)

theorem floatsOk_mapFloats (hf : ∀ text, FloatsOk (f text)) (j : Json) :
    FloatsOk (mapFloats f j) := by
  induction j using induct with
  | null | bool | int | string => simp [FloatsOk, mapFloats, scalars]
  | float text => exact hf text
  | array items ih =>
    intro text hmem
    simp only [mapFloats, scalars, mapItems_eq_map, mem_scalarsItems, List.mem_map,
      exists_exists_and_eq_and] at hmem
    obtain ⟨item, hitem, hmem⟩ := hmem
    exact ih item hitem text hmem
  | object fields ih =>
    intro text hmem
    simp only [mapFloats, scalars, mapFields_eq_map, mem_scalarsFields, List.mem_map,
      exists_exists_and_eq_and, reduceCtorEq, false_or] at hmem
    obtain ⟨field, hfield, hmem⟩ := hmem
    exact ih field hfield text hmem

/-! ### The text determines the value -/

/-- The forms of a value that its first character tells apart. -/
inductive Kind where
  | null | bool (b : Bool) | number | string | array | object
deriving DecidableEq

def kind : Json → Kind
  | .null => .null
  | .bool b => .bool b
  | .int _ => .number
  | .float _ => .number
  | .string _ => .string
  | .array _ => .array
  | .object _ => .object

def kindOfHead (c : Char) : Option Kind :=
  if c = 'n' then some .null
  else if c = 't' then some (.bool true)
  else if c = 'f' then some (.bool false)
  else if c = '"' then some .string
  else if c = '[' then some .array
  else if c = '\x7b' then some .object
  else if startsNumber c then some .number
  else none

theorem kindOfHead_startsNumber (h : startsNumber c = true) : kindOfHead c = some .number := by
  have hne : ∀ d : Char, startsNumber d = false → c ≠ d := by
    intro d hd hcd
    rw [hcd, hd] at h
    exact absurd h Bool.false_ne_true
  simp only [kindOfHead, if_neg (hne 'n' (by decide)), if_neg (hne 't' (by decide)),
    if_neg (hne 'f' (by decide)), if_neg (hne '"' (by decide)), if_neg (hne '[' (by decide)),
    if_neg (hne '\x7b' (by decide)), h, if_true]

theorem head_intText (n : ℤ) : ∃ c rest, intText n = c :: rest ∧ startsNumber c = true := by
  unfold intText
  split
  · exact ⟨'-', _, rfl, by decide⟩
  obtain ⟨c, rest, h⟩ := List.exists_cons_of_ne_nil (Nat.toDigits_ne_nil (n := n.natAbs) (b := 10))
  have hdigit : c.isDigit = true :=
    Nat.isDigit_of_mem_toDigits (by decide) (Nat.le_refl 10) (h ▸ List.mem_cons_self)
  exact ⟨c, rest, h, by simp [startsNumber, hdigit]⟩

theorem head_floatText (h : isFloatText cs = true) :
    ∃ c rest, cs = c :: rest ∧ startsNumber c = true := by
  simp only [isFloatText, Bool.and_eq_true] at h
  cases cs with
  | nil => exact absurd h.2 (by decide)
  | cons c rest => exact ⟨c, rest, rfl, h.2⟩

theorem head_print (h : FloatsOk j) :
    ∃ c rest, print j = c :: rest ∧ kindOfHead c = some (kind j) := by
  cases j with
  | null => exact ⟨_, _, rfl, by decide⟩
  | bool b => cases b <;> exact ⟨_, _, rfl, by decide⟩
  | int n =>
    obtain ⟨c, rest, hprint, hc⟩ := head_intText n
    exact ⟨c, rest, hprint, kindOfHead_startsNumber hc⟩
  | float text =>
    obtain ⟨c, rest, hprint, hc⟩ := head_floatText (h text (List.mem_singleton.mpr rfl))
    exact ⟨c, rest, hprint, kindOfHead_startsNumber hc⟩
  | string | array | object => exact ⟨_, _, rfl, rfl⟩

theorem kind_eq_of_print (ha : FloatsOk a) (hb : FloatsOk b)
    (h : print a ++ s = print b ++ t) : kind a = kind b := by
  obtain ⟨c, rest, hc, hkc⟩ := head_print ha
  obtain ⟨d, rest', hd, hkd⟩ := head_print hb
  rw [hc, hd, List.cons_append, List.cons_append] at h
  rw [(List.cons.inj h).1, hkd] at hkc
  exact (Option.some.inj hkc).symm

/-- What can follow a value: the end, or a character that is in no number. -/
def Ends (s : List Char) : Prop := ∀ c ∈ s.head?, isNumberChar c = false

theorem takeWhile_number (hcs : ∀ c ∈ cs, isNumberChar c = true) (hs : Ends s) :
    (cs ++ s).takeWhile isNumberChar = cs := by
  have hstop : s.takeWhile isNumberChar = [] := by
    cases s with
    | nil => rfl
    | cons c s => rw [List.takeWhile_cons, hs c rfl, if_neg Bool.false_ne_true]
  rw [List.takeWhile_append_of_pos hcs, hstop, List.append_nil]

theorem number_cancel {ds : List Char} (hcs : ∀ c ∈ cs, isNumberChar c = true)
    (hds : ∀ c ∈ ds, isNumberChar c = true) (hs : Ends s) (ht : Ends t) (h : cs ++ s = ds ++ t) :
    cs = ds ∧ s = t := by
  have heq : cs = ds := by
    rw [← takeWhile_number hcs hs, h, takeWhile_number hds ht]
  subst heq
  exact ⟨rfl, List.append_cancel_left h⟩

theorem mem_floatText (h : isFloatText cs = true) :
    ∀ c ∈ cs, isNumberChar c = true := by
  simp only [isFloatText, Bool.and_eq_true, List.all_eq_true] at h
  exact h.1.1

theorem intText_ne_floatText {n : ℤ} (h : isFloatText cs = true) :
    intText n ≠ cs := by
  intro heq
  simp only [isFloatText, Bool.and_eq_true, List.any_eq_true] at h
  obtain ⟨c, hmem, hc⟩ := h.1.2
  rcases mem_intText (heq ▸ hmem) with rfl | hdigit
  · exact absurd hc (by decide)
  simp only [isFloatChar, List.contains_eq_mem, List.mem_cons, List.not_mem_nil, or_false,
    decide_eq_true_eq] at hc
  rcases hc with rfl | rfl | rfl | rfl <;> exact absurd hdigit (by decide)

theorem number_print_cancel (hka : kind a = .number)
    (hkb : kind b = .number) (ha : FloatsOk a) (hb : FloatsOk b) (hs : Ends s) (ht : Ends t)
    (h : print a ++ s = print b ++ t) : a = b ∧ s = t := by
  have hint : ∀ n : ℤ, ∀ c ∈ intText n, isNumberChar c = true := by
    intro n c hc
    rcases mem_intText hc with rfl | hdigit
    · decide
    · simp [isNumberChar, hdigit]
  have hfloat : ∀ {text : String}, FloatsOk (.float text) → isFloatText text.toList = true :=
    fun hok => hok _ (List.mem_singleton.mpr rfl)
  cases a <;> simp only [kind, reduceCtorEq] at hka
  case int n =>
    cases b <;> simp only [kind, reduceCtorEq] at hkb
    case int m =>
      obtain ⟨htext, rfl⟩ := number_cancel (hint n) (hint m) hs ht h
      exact ⟨congrArg Json.int (intText_injective htext), rfl⟩
    case float text =>
      have hcancel := number_cancel (hint n) (mem_floatText (hfloat hb)) hs ht h
      exact absurd hcancel.1 (intText_ne_floatText (hfloat hb))
  case float text =>
    cases b <;> simp only [kind, reduceCtorEq] at hkb
    case int m =>
      have hcancel := number_cancel (mem_floatText (hfloat ha)) (hint m) hs ht h
      exact absurd hcancel.1.symm (intText_ne_floatText (hfloat ha))
    case float text' =>
      obtain ⟨htext, rfl⟩ :=
        number_cancel (mem_floatText (hfloat ha)) (mem_floatText (hfloat hb)) hs ht h
      exact ⟨congrArg Json.float (String.toList_injective htext), rfl⟩

def Cancels (a : Json) : Prop :=
  FloatsOk a → ∀ b, FloatsOk b → ∀ s t, Ends s → Ends t → print a ++ s = print b ++ t →
    a = b ∧ s = t

theorem ends_cons (h : isNumberChar c = false) (s : List Char) : Ends (c :: s) := by
  intro d hd
  rw [← Option.some.inj hd]
  exact h

theorem ends_printItems (items : List Json) (s : List Char) :
    Ends (printItems false items ++ s) := by
  cases items with
  | nil => exact ends_cons (by decide) s
  | cons item items => exact ends_cons (by decide) _

theorem ends_printFields (fields : List (String × Json)) (s : List Char) :
    Ends (printFields false fields ++ s) := by
  cases fields with
  | nil => exact ends_cons (by decide) s
  | cons f fields => exact ends_cons (by decide) _

theorem printItems_cons_ne {item : Json} (hitem : FloatsOk item) (first : Bool) (items : List Json)
    (s t : List Char) : printItems first (item :: items) ++ s ≠ ']' :: t := by
  intro h
  cases first with
  | false =>
    rw [printItems, if_neg Bool.false_ne_true] at h
    exact absurd (List.cons.inj h).1 (by decide)
  | true =>
    obtain ⟨c, rest, hc, hkind⟩ := head_print hitem
    rw [printItems, if_pos rfl, List.nil_append, hc, List.cons_append, List.cons_append] at h
    rw [(List.cons.inj h).1] at hkind
    exact absurd hkind (by simp [kindOfHead, startsNumber])

theorem printItems_cancel (hcancels : ∀ item ∈ items, Cancels item)
    (hok : ∀ item ∈ items, FloatsOk item) {items' : List Json}
    (hok' : ∀ item ∈ items', FloatsOk item)
    (h : printItems first items ++ s = printItems first items' ++ t) : items = items' ∧ s = t := by
  induction items generalizing first items' with
  | nil =>
    cases items' with
    | nil => exact ⟨rfl, (List.cons.inj h).2⟩
    | cons item items' =>
      exact absurd h.symm (printItems_cons_ne (hok' item List.mem_cons_self) first items' t s)
  | cons item items ih =>
    cases items' with
    | nil =>
      exact absurd h (printItems_cons_ne (hok item List.mem_cons_self) first items s t)
    | cons item' items' =>
      simp only [printItems, List.append_assoc, List.append_cancel_left_eq] at h
      obtain ⟨rfl, hrest⟩ := hcancels item List.mem_cons_self (hok item List.mem_cons_self)
        item' (hok' item' List.mem_cons_self) _ _ (ends_printItems _ _) (ends_printItems _ _) h
      obtain ⟨rfl, rfl⟩ := ih (fun a ha => hcancels a (List.mem_cons_of_mem _ ha))
        (fun a ha => hok a (List.mem_cons_of_mem _ ha))
        (fun a ha => hok' a (List.mem_cons_of_mem _ ha)) hrest
      exact ⟨rfl, rfl⟩

theorem printFields_cons_ne (f : String × Json) (first : Bool) (fields : List (String × Json))
    (s t : List Char) : printFields first (f :: fields) ++ s ≠ '\x7d' :: t := by
  intro h
  cases first <;> exact absurd (List.cons.inj h).1 (by decide)

theorem printFields_cancel (hcancels : ∀ f ∈ fields, Cancels f.2)
    (hok : ∀ f ∈ fields, FloatsOk f.2) {fields' : List (String × Json)}
    (hok' : ∀ f ∈ fields', FloatsOk f.2)
    (h : printFields first fields ++ s = printFields first fields' ++ t) :
    fields = fields' ∧ s = t := by
  induction fields generalizing first fields' with
  | nil =>
    cases fields' with
    | nil => exact ⟨rfl, (List.cons.inj h).2⟩
    | cons f fields' => exact absurd h.symm (printFields_cons_ne f first fields' t s)
  | cons f fields ih =>
    cases fields' with
    | nil => exact absurd h (printFields_cons_ne f first fields s t)
    | cons f' fields' =>
      obtain ⟨key, value⟩ := f
      obtain ⟨key', value'⟩ := f'
      simp only [printFields, List.append_assoc, List.append_cancel_left_eq] at h
      obtain ⟨rfl, hvalue⟩ := printString_cancel h
      obtain ⟨rfl, hrest⟩ := hcancels (key, value) List.mem_cons_self
        (hok (key, value) List.mem_cons_self) value' (hok' _ List.mem_cons_self) _ _
        (ends_printFields _ _) (ends_printFields _ _) (List.cons.inj hvalue).2
      obtain ⟨rfl, rfl⟩ := ih (fun a ha => hcancels a (List.mem_cons_of_mem _ ha))
        (fun a ha => hok a (List.mem_cons_of_mem _ ha))
        (fun a ha => hok' a (List.mem_cons_of_mem _ ha)) hrest
      exact ⟨rfl, rfl⟩

theorem print_cancel (a : Json) : Cancels a := by
  -- The first character gives the form of both values.
  induction a using induct with
  | null =>
    intro ha b hb s t _ _ h
    have hkind := kind_eq_of_print ha hb h
    cases b <;> simp only [kind, reduceCtorEq] at hkind
    exact ⟨rfl, List.append_cancel_left h⟩
  | bool v =>
    intro ha b hb s t _ _ h
    have hkind := kind_eq_of_print ha hb h
    cases b <;> simp only [kind, reduceCtorEq, Kind.bool.injEq] at hkind
    subst hkind
    exact ⟨rfl, List.append_cancel_left h⟩
  | int | float =>
    intro ha b hb s t hs ht h
    exact number_print_cancel rfl (kind_eq_of_print ha hb h).symm ha hb hs ht h
  | string v =>
    intro ha b hb s t _ _ h
    have hkind := kind_eq_of_print ha hb h
    cases b <;> simp only [kind, reduceCtorEq] at hkind
    obtain ⟨rfl, hrest⟩ := printString_cancel h
    exact ⟨rfl, hrest⟩
  | array items ih =>
    intro ha b hb s t _ _ h
    have hkind := kind_eq_of_print ha hb h
    cases b <;> simp only [kind, reduceCtorEq] at hkind
    obtain ⟨rfl, hrest⟩ := printItems_cancel ih ha.item hb.item (List.cons.inj h).2
    exact ⟨rfl, hrest⟩
  | object fields ih =>
    intro ha b hb s t _ _ h
    have hkind := kind_eq_of_print ha hb h
    cases b <;> simp only [kind, reduceCtorEq] at hkind
    obtain ⟨rfl, hrest⟩ := printFields_cancel ih ha.field hb.field (List.cons.inj h).2
    exact ⟨rfl, hrest⟩

theorem print_injective (ha : FloatsOk a) (hb : FloatsOk b) (h : print a = print b) :
    a = b := by
  have hnil : Ends [] := fun c hc => absurd hc (Option.not_mem_none c)
  exact (print_cancel a ha b hb [] [] hnil hnil (by rw [h])).1

end Avon.Lib.JsonText
