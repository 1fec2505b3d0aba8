import Mathlib

/-! Values shared by the services: application errors, aware datetimes and number
texts. An instant counts microseconds from the epoch in UTC; a naive time read
from the database is taken as UTC wherever the source reads one. Floats are
their exact rational values. -/
namespace MapGo

structure AppError where
  statusCode : Nat
  code : String
  message : String
  deriving DecidableEq, Repr

/-- How a service call ends without a result. -/
inductive Failure where
  | app (error : AppError)
  | raised
  deriving DecidableEq, Repr

def orRaise {α : Type} : Option α → Except Failure α
  | some value => .ok value
  | none => .error .raised

abbrev Instant := Int

/-- An aware datetime: order and difference look at the instant, texts at the offset. -/
structure DateTime where
  instant : Instant
  offsetSeconds : Int
  deriving DecidableEq, Repr

/-- Nearest integer, ties to even. -/
def roundHalfEven (q : ℚ) : Int :=
  let below := ⌊q⌋
  let rest := q - below
  if rest < 1 / 2 then below
  else if 1 / 2 < rest then below + 1
  else if 2 ∣ below then below else below + 1

/-- `timedelta(seconds=q)` in microseconds. -/
def secondsDelta (q : ℚ) : Int := roundHalfEven (q * 1000000)

/-- `timedelta(minutes=n)` in microseconds. -/
def minutesDelta (n : Nat) : Int := n * 60000000

namespace DateTime

def add (t : DateTime) (delta : Int) : DateTime := { t with instant := t.instant + delta }

def sub (t : DateTime) (delta : Int) : DateTime := { t with instant := t.instant - delta }

/-- `(a - b).total_seconds()` -/
def secondsSince (a b : DateTime) : ℚ := (a.instant - b.instant : Int) / 1000000

end DateTime

def padLeft (width : Nat) (digits : String) : String :=
  String.ofList (List.replicate (width - digits.length) '0') ++ digits

/-- `f"{t:%H:%M}"` -/
def DateTime.clock (t : DateTime) : String :=
  let minutes := ((t.instant + t.offsetSeconds * 1000000) / 60000000 % 1440).toNat
  padLeft 2 (toString (minutes / 60)) ++ ":" ++ padLeft 2 (toString (minutes % 60))

/-- `f"{q:.<digits>f}"` -/
def fixedText (digits : Nat) (q : ℚ) : String :=
  let scaled := (roundHalfEven (|q| * 10 ^ digits)).natAbs
  let whole := (if q < 0 then "-" else "") ++ toString (scaled / 10 ^ digits)
  if digits = 0 then whole
  else whole ++ "." ++ padLeft digits (toString (scaled % 10 ^ digits))

def stripZeros (text : String) : String :=
  let kept := text.toList.reverse.dropWhile (· = '0')
  String.ofList (kept.dropWhile (· = '.')).reverse

/-- `f"{q:g}"`: six significant digits without trailing zeros. -/
def generalText (q : ℚ) : String :=
  if q = 0 then "0"
  else
    let log := Int.log 10 |q|
    let digits := roundHalfEven (|q| * 10 ^ (5 - log))
    let exponent := if digits = 1000000 then log + 1 else log
    let rounded : ℚ := digits * 10 ^ (log - 5)
    let sign := if q < 0 then "-" else ""
    if -4 ≤ exponent ∧ exponent < 6 then
      let text := fixedText (5 - exponent).toNat rounded
      sign ++ if exponent = 5 then text else stripZeros text
    else
      let mantissa := fixedText 5 (rounded / 10 ^ exponent)
      sign ++ stripZeros mantissa ++ (if exponent < 0 then "e-" else "e+") ++
        padLeft 2 (toString exponent.natAbs)

/-- `needle in text` -/
def contains (text needle : String) : Bool := decide (needle.toList <:+: text.toList)

/-- `value or default` for a number: zero counts as missing. -/
def orDefault (value : Option ℚ) (fallback : ℚ) : ℚ :=
  match value with
  | some q => if q = 0 then fallback else q
  | none => fallback

/-- `repr(text)` of printable text. -/
def reprText (text : String) : String :=
  let codes := text.toList.map Char.toNat
  let quote := if 39 ∈ codes ∧ 34 ∉ codes then 34 else 39
  let escaped := codes.flatMap fun code =>
    if code = quote ∨ code = 92 then [92, code]
    else if code = 10 then [92, 110]
    else if code = 13 then [92, 114]
    else if code = 9 then [92, 116]
    else [code]
  String.ofList (([quote] ++ escaped ++ [quote]).map Char.ofNat)

theorem bind_eq_ok {ε α β : Type} {x : Except ε α} {f : α → Except ε β} {r : β} :
    (x >>= f) = .ok r ↔ ∃ a, x = .ok a ∧ f a = .ok r := by
  cases x <;> simp [bind, Except.bind]

@[simp] theorem orRaise_eq_ok {α : Type} {x : Option α} {a : α} :
    orRaise x = .ok a ↔ x = some a := by
  cases x <;> simp [orRaise]

theorem roundHalfEven_nonneg {q : ℚ} (nonneg : 0 ≤ q) : 0 ≤ roundHalfEven q := by
  have floor : 0 ≤ ⌊q⌋ := Int.floor_nonneg.mpr nonneg
  simp only [roundHalfEven]
  split
  · exact floor
  · split
    · omega
    · split <;> omega

theorem floor_le_roundHalfEven (q : ℚ) : ⌊q⌋ ≤ roundHalfEven q := by
  simp only [roundHalfEven]
  split
  · exact le_rfl
  · split
    · omega
    · split <;> omega

theorem roundHalfEven_le_floor (q : ℚ) : roundHalfEven q ≤ ⌊q⌋ + 1 := by
  simp only [roundHalfEven]
  split
  · omega
  · split
    · exact le_rfl
    · split <;> omega

theorem roundHalfEven_mono {q r : ℚ} (le : q ≤ r) : roundHalfEven q ≤ roundHalfEven r := by
  rcases (Int.floor_mono le).lt_or_eq with below | same
  · calc roundHalfEven q ≤ ⌊q⌋ + 1 := roundHalfEven_le_floor q
      _ ≤ ⌊r⌋ := below
      _ ≤ roundHalfEven r := floor_le_roundHalfEven r
  · have rest : q - (⌊r⌋ : ℚ) ≤ r - (⌊r⌋ : ℚ) := sub_le_sub_right le _
    simp only [roundHalfEven, same]
    split_ifs <;> first | omega | linarith

theorem secondsDelta_mono {q r : ℚ} (le : q ≤ r) : secondsDelta q ≤ secondsDelta r :=
  roundHalfEven_mono (by linarith)

end MapGo
