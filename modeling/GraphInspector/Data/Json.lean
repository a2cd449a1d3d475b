import Mathlib.Algebra.Order.BigOperators.Group.List
import Mathlib.Data.Nat.Digits.Defs

/-!
JSON values with unsigned numbers, their compact encoding and how many bytes it takes.
-/

namespace Data

variable {c : Char}

inductive Json where
  | null
  | bool (value : Bool)
  | num (value : Nat)
  | str (text : String)
  | arr (items : List Json)
  | obj (fields : List (String × Json))

namespace Json

def utf8 (text : List Char) : List UInt8 :=
  text.flatMap String.utf8EncodeChar

def escape (c : Char) : List UInt8 :=
  match c.toNat with
  | 0x22 => [0x5c, 0x22]
  | 0x5c => [0x5c, 0x5c]
  | 0x08 => [0x5c, 0x62]
  | 0x09 => [0x5c, 0x74]
  | 0x0a => [0x5c, 0x6e]
  | 0x0c => [0x5c, 0x66]
  | 0x0d => [0x5c, 0x72]
  | code =>
    if code < 0x20 then
      [0x5c, 0x75, 0x30, 0x30] ++ utf8 [Nat.digitChar (code / 16), Nat.digitChar (code % 16)]
    else
      String.utf8EncodeChar c

def quoted (text : String) : List UInt8 :=
  0x22 :: (text.toList.flatMap escape ++ [0x22])

def separated (parts : List (List UInt8)) : List UInt8 :=
  List.intercalate [0x2c] parts

mutual

def encode : Json → List UInt8
  | null => utf8 "null".toList
  | bool true => utf8 "true".toList
  | bool false => utf8 "false".toList
  | num value => utf8 (Nat.toDigits 10 value)
  | str text => quoted text
  | arr items => 0x5b :: (separated (encodeItems items) ++ [0x5d])
  | obj fields => 0x7b :: (separated (encodeFields fields) ++ [0x7d])

def encodeItems : List Json → List (List UInt8)
  | [] => []
  | item :: items => item.encode :: encodeItems items

def encodeFields : List (String × Json) → List (List UInt8)
  | [] => []
  | (key, value) :: fields => (quoted key ++ 0x3a :: value.encode) :: encodeFields fields

end

theorem encodeItems_eq_map (items : List Json) : encodeItems items = items.map encode := by
  induction items with
  | nil => rfl
  | cons item items ih => rw [encodeItems, ih, List.map_cons]

theorem encodeFields_eq_map (fields : List (String × Json)) :
    encodeFields fields = fields.map fun field => quoted field.1 ++ 0x3a :: field.2.encode := by
  induction fields with
  | nil => rfl
  | cons field fields ih => rw [encodeFields, ih, List.map_cons]

def size (json : Json) : Nat :=
  json.encode.length

def Plain (c : Char) : Prop :=
  0x20 ≤ c.toNat ∧ c.toNat < 0x80 ∧ c.toNat ≠ 0x22 ∧ c.toNat ≠ 0x5c

instance (c : Char) : Decidable (Plain c) :=
  inferInstanceAs (Decidable (_ ∧ _ ∧ _ ∧ _))

theorem length_utf8EncodeChar (h : c.toNat < 0x80) :
    (String.utf8EncodeChar c).length = 1 := by
  rw [String.length_utf8EncodeChar]
  unfold Char.utf8Size
  rw [if_pos]
  exact Nat.le_of_lt_succ h

theorem length_escape (h : Plain c) : (escape c).length = 1 := by
  obtain ⟨hlow, hhigh, hquote, hbackslash⟩ := h
  unfold escape
  split <;> try omega
  rw [if_neg (Nat.not_lt.mpr hlow), length_utf8EncodeChar hhigh]

theorem length_flatMap_of_forall {α β : Type} {f : α → List β} {l : List α}
    (h : ∀ a ∈ l, (f a).length = 1) : (l.flatMap f).length = l.length := by
  induction l with
  | nil => rfl
  | cons a l ih =>
    rw [List.flatMap_cons, List.length_append, h a List.mem_cons_self,
      ih fun b hb => h b (List.mem_cons_of_mem a hb), List.length_cons, Nat.add_comm]

variable {text : String} {value digits : Nat}

theorem length_quoted (h : ∀ c ∈ text.toList, Plain c) :
    (quoted text).length = text.toList.length + 2 := by
  unfold quoted
  rw [List.length_cons, List.length_append,
    length_flatMap_of_forall fun c hc => length_escape (h c hc)]
  rfl

theorem plain_digitChar : ∀ digit < 16, Plain (Nat.digitChar digit) := by
  decide

theorem plain_of_isDigit (h : c.isDigit = true) : Plain c := by
  rw [Char.isDigit, Bool.and_eq_true, decide_eq_true_eq, decide_eq_true_eq] at h
  have hlow : 48 ≤ c.toNat := h.1
  have hhigh : c.toNat ≤ 57 := h.2
  unfold Plain
  omega

theorem plain_of_mem_toDigits (h : c ∈ Nat.toDigits 10 value) : Plain c :=
  plain_of_isDigit (Nat.isDigit_of_mem_toDigits (by decide) (by decide) h)

theorem length_separated_le (parts : List (List UInt8)) :
    (separated parts).length ≤ (parts.map fun part => part.length + 1).sum := by
  unfold separated
  induction parts with
  | nil => simp
  | cons part parts ih =>
    cases parts with
    | nil => simp
    | cons next parts =>
      rw [List.intercalate_cons_cons, List.length_append, List.length_append, List.map_cons,
        List.sum_cons]
      exact Nat.add_le_add_left ih _

theorem size_arr_le (items : List Json) :
    size (arr items) ≤ (items.map fun item => item.size + 1).sum + 2 := by
  have h := length_separated_le (encodeItems items)
  rw [encodeItems_eq_map, List.map_map] at h
  unfold size
  rw [encode, List.length_cons, List.length_append, encodeItems_eq_map]
  exact Nat.succ_le_succ (Nat.succ_le_succ h)

theorem size_arr_map_le {α : Type} {json : α → Json} {items : List α} {bound : α → Nat}
    (h : ∀ item ∈ items, size (json item) < bound item) :
    size (arr (items.map json)) ≤ (items.map bound).sum + 2 := by
  have hsize := size_arr_le (items.map json)
  rw [List.map_map] at hsize
  have hsum : (items.map ((fun item => item.size + 1) ∘ json)).sum ≤ (items.map bound).sum :=
    List.sum_le_sum h
  omega

def framing (keys : List String) : Nat :=
  (keys.map fun key => (quoted key).length + 2).sum + 2

theorem sum_encodeFields (fields : List (String × Json)) :
    ((encodeFields fields).map fun part => part.length + 1).sum + 2
      = framing (fields.map Prod.fst) + (fields.map fun field => field.2.size).sum := by
  unfold framing
  rw [encodeFields_eq_map]
  induction fields with
  | nil => rfl
  | cons field fields ih =>
    simp only [List.map_cons, List.sum_cons, List.length_append, List.length_cons, size] at ih ⊢
    omega

theorem size_obj_le (fields : List (String × Json)) :
    size (obj fields) ≤
      framing (fields.map Prod.fst) + (fields.map fun field => field.2.size).sum := by
  have h := length_separated_le (encodeFields fields)
  rw [← sum_encodeFields]
  unfold size
  rw [encode, List.length_cons, List.length_append]
  exact Nat.succ_le_succ (Nat.succ_le_succ h)

theorem size_num_le (hpos : 0 < digits) (h : value < 10 ^ digits) : size (num value) ≤ digits := by
  unfold size
  rw [encode, utf8, length_flatMap_of_forall fun c hc => length_utf8EncodeChar
    (plain_of_mem_toDigits hc).2.1]
  exact Nat.toDigits_length 10 value digits hpos h

theorem size_str (h : ∀ c ∈ text.toList, Plain c) : size (str text) = text.toList.length + 2 := by
  unfold size
  rw [encode, length_quoted h]

theorem size_decimal_le (hpos : 0 < digits) (h : value < 10 ^ digits) :
    size (str value.repr) ≤ digits + 2 := by
  have htext : value.repr.toList = Nat.toDigits 10 value := by
    rw [Nat.repr, String.toList_ofList]
  rw [size_str, htext]
  . exact Nat.add_le_add_right (Nat.toDigits_length 10 value digits hpos h) 2
  . rw [htext]
    intro c hc
    exact plain_of_mem_toDigits hc

theorem size_bool_le (value : Bool) : size (bool value) ≤ 5 := by
  cases value with
  | false => decide
  | true => decide

end Json

end Data
