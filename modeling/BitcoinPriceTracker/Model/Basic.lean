import Mathlib.Tactic

/-!
# Clocks, numbers and the platform

Instants of the monotonic clock and durations are natural numbers of nanoseconds, so that a
saturating difference of instants is the subtraction of ℕ. A system time is an integer
number of nanoseconds since the Unix epoch. `F64` keeps the special values of a double; its operations are exact on
the finite ones, and `rounded` is the rounding that follows them where the program rounds. `Platform` collects what
the program takes from its libraries; the fields that are propositions are the documented behaviour the program
relies on.
-/

namespace BitcoinPriceTracker

/-- `Duration::from_secs`. -/
def Duration.fromSecs (seconds : ℕ) : ℕ := 1000000000 * seconds

/-- `Duration::as_secs`. -/
def Duration.asSecs (duration : ℕ) : ℕ := duration / 1000000000

lemma Duration.fromSecs_mono {a b : ℕ} (h : a ≤ b) : Duration.fromSecs a ≤ Duration.fromSecs b :=
  Nat.mul_le_mul_left _ h

/-- `time.duration_since(UNIX_EPOCH).ok()`. -/
def SystemTime.sinceEpoch (time : ℤ) : Option ℕ :=
  if 0 ≤ time then some time.toNat else none

/-- The instants that the platform can represent. Their seconds fit in 64 bits. -/
structure InstantRange where
  last : ℕ
  seconds_lt : last < Duration.fromSecs (2 ^ 64)

/-- `Instant::checked_add`; the operator `+` panics where this is `none`. -/
def InstantRange.checkedAdd (range : InstantRange) (now delay : ℕ) : Option ℕ :=
  if now + delay ≤ range.last then some (now + delay) else none

lemma InstantRange.checkedAdd_eq_some {range : InstantRange} {now t delay : ℕ} :
    range.checkedAdd now delay = some t ↔ now + delay ≤ range.last ∧ t = now + delay := by
  unfold checkedAdd
  split <;> simp_all [eq_comm]

def i64Min : ℤ := -2 ^ 63

def i64Max : ℤ := 2 ^ 63 - 1

/-- `i64::checked_sub`. -/
def checkedSub (a b : ℤ) : Option ℤ :=
  if i64Min ≤ a - b ∧ a - b ≤ i64Max then some (a - b) else none

lemma checkedSub_eq_some {a b d : ℤ} :
    checkedSub a b = some d ↔ d = a - b ∧ i64Min ≤ d ∧ d ≤ i64Max := by
  unfold checkedSub
  split
  · simp only [Option.some.injEq]
    constructor
    · rintro rfl
      exact ⟨rfl, by assumption⟩
    · rintro ⟨rfl, _⟩
      rfl
  · simp only [reduceCtorEq, false_iff, not_and]
    rintro rfl
    tauto

/-- A double: the special values, and the finite ones as rationals. -/
inductive F64
  | finite (value : ℚ)
  | infinity
  | negInfinity
  | nan
  deriving DecidableEq

namespace F64

def isFinite : F64 → Bool
  | finite _ => true
  | _ => false

/-- The comparison `price > 0.0`. -/
def positive : F64 → Bool
  | finite value => decide (0 < value)
  | infinity => true
  | _ => false

/-- The comparison `price <= 0.0`. -/
def nonPositive : F64 → Bool
  | finite value => decide (value ≤ 0)
  | negInfinity => true
  | _ => false

def add : F64 → F64 → F64
  | finite a, finite b => finite (a + b)
  | nan, _ | _, nan | infinity, negInfinity | negInfinity, infinity => nan
  | infinity, _ | _, infinity => infinity
  | negInfinity, _ | _, negInfinity => negInfinity

def neg : F64 → F64
  | finite a => finite (-a)
  | infinity => negInfinity
  | negInfinity => infinity
  | nan => nan

def sub (a b : F64) : F64 := a.add b.neg

/-- Division by a length, which is positive wherever the program divides. -/
def divLen : F64 → ℕ → F64
  | finite a, n => finite (a / n)
  | a, _ => a

/-- `f64::min` ignores a NaN operand. -/
def min : F64 → F64 → F64
  | finite a, finite b => finite (a ⊓ b)
  | nan, b => b
  | a, nan => a
  | negInfinity, _ | _, negInfinity => negInfinity
  | infinity, b => b
  | a, infinity => a

def max : F64 → F64 → F64
  | finite a, finite b => finite (a ⊔ b)
  | nan, b => b
  | a, nan => a
  | infinity, _ | _, infinity => infinity
  | negInfinity, b => b
  | a, negInfinity => a

/-- `2 ^ e`. -/
def power (e : ℤ) : ℚ := if 0 ≤ e then (2 ^ e.toNat : ℕ) else 1 / (2 ^ (-e).toNat : ℕ)

/-- The exponent of the leading bit. -/
def leadingExponent (q : ℚ) : ℤ :=
  let estimate := (q.num.natAbs.log2 : ℤ) - q.den.log2
  if power estimate ≤ |q| then estimate else estimate - 1

/-- The nearest integer, the even one of two. -/
def halfEven (q : ℚ) : ℤ :=
  let rest := q - ⌊q⌋
  if rest < 1 / 2 ∨ rest = 1 / 2 ∧ ⌊q⌋ % 2 = 0 then ⌊q⌋ else ⌊q⌋ + 1

/-- The double of a rational: 53 bits, none of them below `2 ^ (-1074)`. -/
def round (q : ℚ) : F64 :=
  let e := Max.max (-1074) (leadingExponent q - 52)
  let nearest := halfEven (q / power e) * power e
  if power 1024 ≤ nearest then infinity
  else if nearest ≤ -power 1024 then negInfinity
  else finite nearest

/-- The result of an operation of the program. -/
def rounded : F64 → F64
  | finite value => round value
  | other => other

lemma rounded_ne_nan {a : F64} (h : a ≠ nan) : a.rounded ≠ nan := by
  cases a with
  | finite value =>
    simp only [rounded, round]
    split
    · simp
    · split <;> simp
  | _ => exact h

/-- The number of a finite price. -/
def value : F64 → ℚ
  | finite value => value
  | _ => 0

lemma foldl_finite (op : F64 → F64 → F64) (op' : ℚ → ℚ → ℚ)
    (h : ∀ a b, op (finite a) (finite b) = finite (op' a b)) (prices : List ℚ) (price : ℚ) :
    (prices.map finite).foldl op (finite price) = finite (prices.foldl op' price) := by
  induction prices generalizing price with
  | nil => rfl
  | cons next prices ih => rw [List.map_cons, List.foldl_cons, h, ih, List.foldl_cons]

end F64

/-- A parsed `serde_json::Value`. -/
inductive Json
  | null
  | bool (value : Bool)
  | number (value : F64)
  | string (value : String)
  | array (entries : List Json)
  | object (fields : List (String × Json))

namespace Json

def get : Json → String → Option Json
  | object fields, name => fields.lookup name
  | _, _ => none

def asStr : Json → Option String
  | string value => some value
  | _ => none

def asF64 : Json → Option F64
  | number value => some value
  | _ => none

def asArray : Json → Option (List Json)
  | array entries => some entries
  | _ => none

end Json

/-- A `serde_json::Error`, of which the program only keeps the diagnostic text. -/
structure JsonError where
  diagnostic : String
  deriving DecidableEq

/-- A `reqwest::Error`. -/
structure ReqwestError where
  isTimeout : Bool
  diagnostic : String
  deriving DecidableEq

/-- What the program takes from its libraries and its platform. -/
structure Platform where
  range : InstantRange
  parseHttpDate : String → Option ℤ
  /-- `httpdate` knows no year before 1970. -/
  parseHttpDate_nonneg : ∀ {text time}, parseHttpDate text = some time → 0 ≤ time
  fmtHttpDate : ℤ → String
  /-- `StatusCode::canonical_reason`. -/
  canonicalReason : ℕ → Option String
  /-- `str::parse::<f64>`. -/
  parseF64 : String → Option F64
  /-- `serde_json::from_slice::<Value>`. -/
  parseJson : List UInt8 → Except JsonError Json
  /-- `serde_json::to_string` and `from_str` on a list of strings. -/
  encodeStrings : List String → String
  decodeStrings : String → Except JsonError (List String)
  decode_encode : ∀ strings, decodeStrings (encodeStrings strings) = .ok strings
  /-- The order in which `HashMap::into_values` yields the values. -/
  intoValues : ∀ {α : Type}, List α → List α
  intoValues_perm : ∀ {α : Type} (values : List α), (intoValues values).Perm values

end BitcoinPriceTracker
