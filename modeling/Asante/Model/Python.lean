import Asante.Core.Framing
import Mathlib.Data.Rat.Floor
import Mathlib.Data.Rat.Lemmas
import Mathlib.Tactic.Common

/-!
# Python Values

The part of Python the application's functions work with: dictionaries with
string keys, the exceptions that are raised and caught, the string methods the
input checks use, JSON text, and the rendering of an amount with two decimals.

Numbers are exact rationals, which is how every amount in the application is
read here. A dictionary keeps its insertion order and one value for each key,
so `{**a, **b}` is `PyDict.merge a b`.

`json.dumps` either fails on a value that has no JSON form or produces a text
that stands for the dictionary; `JsonText` is such a text, read as what it
stands for. Nothing in the application looks at the text itself.

## Main definitions

* `PyVal`: A dictionary value.
* `PyDict`: A dictionary with string keys.
* `Exc`: An exception, with the classes the source tells apart.
* `strip`, `lower`: The string methods of the input checks.
* `jsonDumps`, `jsonLoads`: JSON text and back.
* `PyFloat`: The floats, with what is not a number among them.
* `fixed2`: The rendering `f"{amount:.2f}"`.

## Theorems

* `get?_set_self`, `get?_set_other`: Reading back an assignment.
* `get?_merge_left`: Reading past the right-hand dictionary of a merge.
* `jsonLoads_jsonDumps`: A text that was produced reads back as its source.
* `fixed2_inj`: A rendering determines the sign and the rounded amount.
* `newline_not_mem_fixed2`: A rendering is one line.
-/

namespace Asante

/-- A value held under a key of a dictionary. `object` stands for an instance
    of some class that is none of the others. -/
inductive PyVal where
  | none
  | bool (b : Bool)
  | num (q : ℚ)
  | str (s : String)
  | list (xs : List PyVal)
  | dict (xs : List (String × PyVal))
  | object (cls : String)

/-- A dictionary with string keys, in insertion order. -/
abbrev PyDict := List (String × PyVal)

namespace PyDict

/-- `d.get(key)`. -/
def get? (d : PyDict) (key : String) : Option PyVal :=
  d.lookup key

/-- `d[key] = value`: in place for a key already there, at the end otherwise. -/
def set : PyDict → String → PyVal → PyDict
  | [], key, value => [(key, value)]
  | (k, v) :: d, key, value => if k = key then (k, value) :: d else (k, v) :: set d key value

/-- `{**a, **b}`. -/
def merge (a b : PyDict) : PyDict :=
  b.foldl (fun d kv => d.set kv.1 kv.2) a

@[simp] theorem get?_nil (key : String) : get? [] key = none := rfl

theorem get?_cons (k key : String) (v : PyVal) (d : PyDict) :
    get? ((k, v) :: d) key = if key = k then some v else get? d key := by
  simp only [get?, List.lookup_cons]
  by_cases h : key = k
  · rw [if_pos h, h, BEq.rfl]
  · rw [if_neg h, beq_eq_false_iff_ne.mpr h]

theorem get?_set_self (d : PyDict) (key : String) (v : PyVal) :
    (d.set key v).get? key = some v := by
  induction d with
  | nil => rw [set, get?_cons, if_pos rfl]
  | cons kv d ih =>
      rcases kv with ⟨k, u⟩
      by_cases h : k = key
      · rw [set, if_pos h, get?_cons, if_pos h.symm]
      · rw [set, if_neg h, get?_cons, if_neg (fun hc => h hc.symm), ih]

theorem get?_set_other (d : PyDict) (key other : String) (v : PyVal) (hne : other ≠ key) :
    (d.set key v).get? other = d.get? other := by
  induction d with
  | nil => rw [set, get?_cons, if_neg hne]
  | cons kv d ih =>
      rcases kv with ⟨k, u⟩
      by_cases h : k = key
      · have hk : other ≠ k := fun hc => hne (hc.trans h)
        rw [set, if_pos h, get?_cons, get?_cons, if_neg hk, if_neg hk]
      · rw [set, if_neg h, get?_cons, get?_cons, ih]

theorem get?_set (d : PyDict) (key other : String) (v : PyVal) :
    (d.set key v).get? other = if other = key then some v else d.get? other := by
  by_cases h : other = key
  · rw [if_pos h, h, get?_set_self]
  · rw [if_neg h, get?_set_other d key other v h]

/-- The later of two assignments to a key is the one that counts. -/
theorem set_set (d : PyDict) (key : String) (u v : PyVal) :
    (d.set key u).set key v = d.set key v := by
  induction d with
  | nil => exact if_pos rfl
  | cons kv d ih =>
      rcases kv with ⟨k, w⟩
      by_cases h : k = key
      · simp only [set, if_pos h]
      · simp only [set, if_neg h, ih]

/-- A key that the right-hand dictionary does not hold is read on the left. -/
theorem get?_merge_left (a b : PyDict) (key : String) (h : ∀ kv ∈ b, kv.1 ≠ key) :
    (a.merge b).get? key = a.get? key := by
  induction b generalizing a with
  | nil => rfl
  | cons kv b ih =>
      rw [merge, List.foldl_cons]
      exact (ih (a.set kv.1 kv.2) (fun u hu => h u (List.mem_cons_of_mem _ hu))).trans
        (get?_set_other a kv.1 key kv.2 (h kv List.mem_cons_self).symm)

end PyDict

/-- An exception, with the classes the source raises and catches by name.
    `other` is any further subclass of `Exception`; `baseException` is one
    outside it, such as `KeyboardInterrupt`. -/
inductive Exc where
  | lookupError (msg : String)
  | trustedTaskNotFoundError (msg : String)
  | approvalStateError (msg : String)
  | transientCreditProviderError (msg : String)
  | valueError (msg : String)
  | typeError (msg : String)
  | runtimeError (msg : String)
  | assertionError (msg : String)
  | integrityError (msg : String)
  | toolError (msg : String)
  | httpException (statusCode : Nat) (detail : String)
  | other (cls : String)
  | baseException (cls : String)
  deriving DecidableEq

namespace Exc

/-- Caught by `except Exception`. -/
def isException : Exc → Bool
  | baseException _ => false
  | _ => true

/-- Caught by `except TransientCreditProviderError`. -/
def isTransient : Exc → Bool
  | transientCreditProviderError _ => true
  | _ => false

/-- Caught by `except LookupError`, of which `TrustedTaskNotFoundError` is a
    subclass. -/
def isLookup : Exc → Bool
  | lookupError _ => true
  | trustedTaskNotFoundError _ => true
  | _ => false

/-- Caught by `except TrustedTaskNotFoundError`. -/
def isTaskNotFound : Exc → Bool
  | trustedTaskNotFoundError _ => true
  | _ => false

/-- Caught by `except ApprovalStateError`. -/
def isApprovalState : Exc → Bool
  | approvalStateError _ => true
  | _ => false

/-- `str(exc)`. For the classes that carry no text here it is not looked at. -/
def text : Exc → String
  | lookupError msg => msg
  | trustedTaskNotFoundError msg => msg
  | approvalStateError msg => msg
  | transientCreditProviderError msg => msg
  | valueError msg => msg
  | typeError msg => msg
  | runtimeError msg => msg
  | assertionError msg => msg
  | integrityError msg => msg
  | toolError msg => msg
  | httpException _ detail => detail
  | other cls => cls
  | baseException cls => cls

end Exc

/-- `str.isspace`, the characters `str.strip` removes. -/
def isPySpace (c : Char) : Bool :=
  (0x09 ≤ c.toNat && c.toNat ≤ 0x0d) || (0x1c ≤ c.toNat && c.toNat ≤ 0x20) ||
    c.toNat = 0x85 || c.toNat = 0xa0 || c.toNat = 0x1680 ||
    (0x2000 ≤ c.toNat && c.toNat ≤ 0x200a) || c.toNat = 0x2028 || c.toNat = 0x2029 ||
    c.toNat = 0x202f || c.toNat = 0x205f || c.toNat = 0x3000

/-- `s.strip()`. -/
@[irreducible] def strip (s : String) : String :=
  String.ofList ((s.toList.dropWhile isPySpace).reverse.dropWhile isPySpace).reverse

/-- `s.lower()`, as far as its callers can see. The urgency check, the reading of
    the auth mode and that of the bearer scheme compare the result with words of
    ASCII letters, and the payload of a work order is built once the urgency has
    passed its check. Besides `A` to `Z` only the Kelvin sign lowers to an ASCII
    letter alone, so a character outside ASCII that is kept here is kept out of
    all these words in Python as well. -/
@[irreducible] def lower (s : String) : String :=
  String.ofList (s.toList.map fun c => if c.toNat = 0x212a then 'k' else c.toLower)

mutual

/-- The value has a JSON form. -/
def PyVal.serialisable : PyVal → Bool
  | .none => true
  | .bool _ => true
  | .num _ => true
  | .str _ => true
  | .list xs => listSerialisable xs
  | .dict xs => dictSerialisable xs
  | .object _ => false

/-- Every item of a list has a JSON form. -/
def listSerialisable : List PyVal → Bool
  | [] => true
  | x :: xs => x.serialisable && listSerialisable xs

/-- Every value of a dictionary has a JSON form. -/
def dictSerialisable : List (String × PyVal) → Bool
  | [] => true
  | (_, x) :: xs => x.serialisable && dictSerialisable xs

end

/-- A JSON text for a dictionary, read as the dictionary it stands for. -/
structure JsonText where
  stands : PyDict

/-- `json.dumps(d, sort_keys=True)`. -/
def jsonDumps (d : PyDict) : Except Exc JsonText :=
  if dictSerialisable d then .ok ⟨d⟩
  else .error (.typeError "Object is not JSON serializable")

/-- `json.loads(text)`. -/
def jsonLoads (text : JsonText) : PyDict :=
  text.stands

theorem jsonLoads_jsonDumps {d : PyDict} {text : JsonText} (h : jsonDumps d = .ok text) :
    jsonLoads text = d := by
  unfold jsonDumps at h
  split at h
  · rw [← Except.ok.inj h]
    rfl
  · exact absurd h (by simp only [reduceCtorEq, not_false_eq_true])

theorem jsonDumps_ok {d : PyDict} (h : dictSerialisable d = true) : jsonDumps d = .ok ⟨d⟩ := by
  rw [jsonDumps, if_pos h]

/-- A nonnegative rational rounded to an integer, halves to even. -/
def roundHalfEven (q : ℚ) : Nat :=
  let n := q.num.natAbs
  let low := n / q.den
  let twice := 2 * (n % q.den)
  if twice < q.den then low
  else if q.den < twice then low + 1
  else if low % 2 = 0 then low else low + 1

/-- The absolute value of an amount in cents, rounded. -/
def cents (amount : ℚ) : Nat :=
  roundHalfEven (|amount| * 100)

/-- An amount rounded to two decimals, in cents. -/
def roundCents (amount : ℚ) : Int :=
  if amount < 0 then -(cents amount : Int) else cents amount

/-- Two decimal digits. -/
def twoDigits (n : Nat) : List Char :=
  [Nat.digitChar (n / 10 % 10), Nat.digitChar (n % 10)]

/-- A Python `float`, which need not be a number. -/
inductive PyFloat where
  | finite (q : ℚ)
  | infinite (positive : Bool)
  | nan
  deriving DecidableEq

namespace PyFloat

/-- `x <= y`. -/
def le : PyFloat → PyFloat → Bool
  | nan, _ => false
  | _, nan => false
  | finite a, finite b => a ≤ b
  | infinite positive, finite _ => !positive
  | finite _, infinite positive => positive
  | infinite positive, infinite positive' => !positive || positive'

/-- `-x`. -/
def neg : PyFloat → PyFloat
  | finite q => finite (-q)
  | infinite positive => infinite !positive
  | nan => nan

/-- `x + y`, without rounding. -/
def add : PyFloat → PyFloat → PyFloat
  | nan, _ => nan
  | _, nan => nan
  | finite a, finite b => finite (a + b)
  | infinite positive, finite _ => infinite positive
  | finite _, infinite positive => infinite positive
  | infinite positive, infinite positive' =>
    if positive = positive' then infinite positive else nan

instance : LE PyFloat := ⟨fun x y => x.le y = true⟩

instance : DecidableLE PyFloat := fun x y => inferInstanceAs (Decidable (x.le y = true))

instance : LT PyFloat := ⟨fun x y => x ≤ y ∧ x ≠ y⟩

instance : DecidableLT PyFloat := fun x y => inferInstanceAs (Decidable (x ≤ y ∧ x ≠ y))

instance : Zero PyFloat := ⟨finite 0⟩

instance : Add PyFloat := ⟨add⟩

instance : Sub PyFloat := ⟨fun x y => x.add y.neg⟩

/-- `max(x, y)`, the first of them unless the second is greater. -/
instance : Max PyFloat := ⟨fun x y => if x < y then y else x⟩

end PyFloat

/-- `f"{amount:.2f}"`, of an exact number: a float is rendered as the number it
    is, and the negative zero of the floats, which is rendered `-0.00`, is not
    among them. -/
def fixed2 (amount : ℚ) : String :=
  (if amount < 0 then "-" else "") ++ Nat.repr (cents amount / 100) ++ "." ++
    String.ofList (twoDigits (cents amount % 100))

theorem digitChar_inj : ∀ m < 10, ∀ n < 10, Nat.digitChar m = Nat.digitChar n → m = n := by
  decide

theorem twoDigits_inj {m n : Nat} (hm : m < 100) (hn : n < 100)
    (h : twoDigits m = twoDigits n) : m = n := by
  simp only [twoDigits, List.cons.injEq, and_true] at h
  have htens := digitChar_inj _ (Nat.mod_lt _ (by omega)) _ (Nat.mod_lt _ (by omega)) h.1
  have hones := digitChar_inj _ (Nat.mod_lt _ (by omega)) _ (Nat.mod_lt _ (by omega)) h.2
  omega

/-- The letters of a rendering before its point. -/
theorem fixed2_toList (amount : ℚ) :
    (fixed2 amount).toList = ((if amount < 0 then ['-'] else []) ++
      Nat.toDigits 10 (cents amount / 100)) ++ '.' :: twoDigits (cents amount % 100) := by
  unfold fixed2
  split
  · simp only [String.toList_append, Nat.toList_repr, String.toList_ofList, List.append_assoc]
    rfl
  · simp only [String.toList_append, Nat.toList_repr, String.toList_ofList, List.append_assoc]
    rfl

theorem digit_of_mem_toDigits {n : Nat} {c : Char} (h : c ∈ Nat.toDigits 10 n) :
    c.isDigit = true :=
  Nat.isDigit_of_mem_toDigits (by omega) (by omega) h

theorem digit_of_mem_twoDigits {n : Nat} {c : Char} (h : c ∈ twoDigits n) :
    c.isDigit = true := by
  have hdigit : ∀ m < 10, (Nat.digitChar m).isDigit = true := by decide
  simp only [twoDigits, List.mem_cons, List.not_mem_nil, or_false] at h
  rcases h with h | h
  · rw [h]
    exact hdigit _ (Nat.mod_lt _ (by omega))
  · rw [h]
    exact hdigit _ (Nat.mod_lt _ (by omega))

/-- A rendering is one line. -/
theorem newline_not_mem_fixed2 (amount : ℚ) : '\n' ∉ (fixed2 amount).toList := by
  intro h
  rw [fixed2_toList] at h
  rcases List.mem_append.mp h with hhead | htail
  · rcases List.mem_append.mp hhead with hsign | hint
    · split at hsign
      · exact absurd (List.mem_singleton.mp hsign) (by decide)
      · exact absurd hsign List.not_mem_nil
    · exact absurd (digit_of_mem_toDigits hint) (by decide)
  · rcases List.mem_cons.mp htail with hpoint | hfrac
    · exact absurd hpoint (by decide)
    · exact absurd (digit_of_mem_twoDigits hfrac) (by decide)

/-- The letters before the point: a sign exactly for a negative amount, then
    the whole dollars. -/
theorem signed_digits_inj {s t : Prop} [Decidable s] [Decidable t] {m n : Nat}
    (h : (if s then ['-'] else []) ++ Nat.toDigits 10 m =
      (if t then ['-'] else []) ++ Nat.toDigits 10 n) : (s ↔ t) ∧ m = n := by
  have hdash : ∀ k, '-' ∉ Nat.toDigits 10 k :=
    fun k hk => absurd (digit_of_mem_toDigits hk) (by decide)
  have hdigits : ∀ {j k : Nat}, Nat.toDigits 10 j = Nat.toDigits 10 k → j = k := by
    intro j k hjk
    have hread := congrArg (fun l => Nat.ofDigitChars 10 l 0) hjk
    simpa only [Nat.ofDigitChars_ten_toDigits] using hread
  by_cases hs : s
  · by_cases ht : t
    · rw [if_pos hs, if_pos ht] at h
      exact ⟨iff_of_true hs ht, hdigits (List.cons.inj h).2⟩
    · -- A digit cannot be the sign.
      rw [if_pos hs, if_neg ht, List.nil_append] at h
      exact absurd (h ▸ List.mem_cons_self) (hdash n)
  · by_cases ht : t
    · rw [if_neg hs, if_pos ht, List.nil_append] at h
      exact absurd (h.symm ▸ List.mem_cons_self) (hdash m)
    · rw [if_neg hs, if_neg ht] at h
      exact ⟨iff_of_false hs ht, hdigits h⟩

/-- A rendering determines whether the amount is negative and its absolute
    value in rounded cents. -/
theorem fixed2_inj {a b : ℚ} (h : fixed2 a = fixed2 b) : (a < 0 ↔ b < 0) ∧ cents a = cents b := by
  have hlist := congrArg String.toList h
  rw [fixed2_toList, fixed2_toList] at hlist
  have hpoint : ∀ n, '.' ∉ twoDigits n :=
    fun n hn => absurd (digit_of_mem_twoDigits hn) (by decide)
  rcases Core.append_sep_right (hpoint _) (hpoint _) hlist with ⟨hwhole, hfrac⟩
  rcases signed_digits_inj hwhole with ⟨hsign, hdollars⟩
  have hrest := twoDigits_inj (Nat.mod_lt _ (by omega)) (Nat.mod_lt _ (by omega)) hfrac
  exact ⟨hsign, by omega⟩

theorem fixed2_congr {a b : ℚ} (hsign : a < 0 ↔ b < 0) (hcents : cents a = cents b) :
    fixed2 a = fixed2 b := by
  unfold fixed2
  rw [hcents, if_congr hsign rfl rfl]

example : fixed2 (25 / 2) = "12.50" := by decide +kernel

end Asante
