import NatBehavior.Duration.Text
import NatBehavior.Proofs.Duration.Rounding
import NatBehavior.Proofs.Text.Reader

/-! The texts of durations, read back as times. Each form is as near to the duration as its places
allow, and a longer duration never has a text of a shorter time. -/
namespace NatBehavior.Duration

variable {d d' : Duration} {n tenth seconds : ℕ}

inductive Form where
  /-- Whole milliseconds, as in 250ms. -/
  | millis
  /-- Seconds with one decimal, as in 1.5s. -/
  | tenths
  /-- Whole minutes and seconds, as in 1m 30s. -/
  | minutes
deriving DecidableEq

/-- What a text says: a time in nanoseconds, in one of the forms. -/
structure Reading where
  form : Form
  nanos : ℕ
deriving DecidableEq

/-- Reads a time in any of the forms. The decimal is one digit, and seconds behind minutes are
fewer than sixty. -/
def reading? (cs : List Char) : Option Reading := do
  let (n, rest) ← Reader.number longest.secs cs
  match rest with
  | ['m', 's'] => return ⟨.millis, n * 1000000⟩
  | ['.', digit, 's'] =>
    let tenth ← Numeral.read? 9 [digit]
    return ⟨.tenths, (10 * n + tenth) * 100000000⟩
  | 'm' :: ' ' :: rest =>
    let (seconds, rest) ← Reader.number 59 rest
    guard (rest = ['s'])
    return ⟨.minutes, (60 * n + seconds) * 1000000000⟩
  | _ => none

/-- How near the time read in a form has to be to the time that was written. -/
def Form.Near : Form → (nanos shown : ℕ) → Prop
  | .millis, nanos, shown => shown ≤ nanos ∧ nanos < shown + 1000000
  | .tenths, nanos, shown => nanos ≤ shown + 50000000 ∧ shown ≤ nanos + 50000000
  | .minutes, nanos, shown => shown ≤ nanos ∧ nanos < shown + 1000000000

/-! ### Reading the forms -/

theorem reading?_millis (h : n ≤ longest.secs) :
    reading? (Nat.toDigits 10 n ++ ['m', 's']) = some ⟨.millis, n * 1000000⟩ := by
  rw [reading?, Reader.number_toDigits h (by simp)]
  rfl

theorem reading?_tenths (h : n ≤ longest.secs) (htenth : tenth < 10) :
    reading? (Nat.toDigits 10 n ++ '.' :: Nat.toDigits 10 tenth ++ ['s']) =
      some ⟨.tenths, (10 * n + tenth) * 100000000⟩ := by
  have hdigit := Numeral.read?_toDigits (Nat.le_of_lt_succ htenth)
  rw [Nat.toDigits_of_lt_base htenth] at hdigit ⊢
  rw [List.append_assoc, reading?, Reader.number_toDigits h (by simp)]
  change (Numeral.read? 9 [tenth.digitChar]).bind _ = _
  rw [hdigit]
  rfl

theorem reading?_minutes (h : n ≤ longest.secs) (hseconds : seconds < 60) :
    reading? (Nat.toDigits 10 n ++ 'm' :: ' ' :: Nat.toDigits 10 seconds ++ ['s']) =
      some ⟨.minutes, (60 * n + seconds) * 1000000000⟩ := by
  rw [List.append_assoc, reading?, Reader.number_toDigits h (by simp)]
  change (Reader.number 59 (Nat.toDigits 10 seconds ++ ['s'])).bind _ = _
  rw [Reader.number_toDigits (Nat.le_of_lt_succ hseconds) (by simp)]
  rfl

/-! ### The seconds as a double -/

theorem subsecNanos_lt (d : Duration) : d.subsecNanos < 1000000000 := Nat.mod_lt _ (by decide)

/-- The part of a second past the last whole one, as a double. -/
def fraction (d : Duration) : Dyadic := .nearest d.subsecNanos 1000000000

theorem fraction_isDouble (d : Duration) :
    d.fraction.IsDouble (d.subsecNanos / 1000000000) := by
  have hlt := d.subsecNanos_lt
  exact_mod_cast Dyadic.nearest_isDouble (by decide)
    (by omega : d.subsecNanos < 2 ^ 53 * 1000000000)

theorem abs_fraction_sub_le (d : Duration) :
    |d.fraction.value - d.subsecNanos / 1000000000| ≤ 1 / 2 ^ 53 := by
  have hlt : (d.subsecNanos : ℚ) < 1000000000 := by exact_mod_cast d.subsecNanos_lt
  calc _ ≤ (d.subsecNanos / 1000000000 : ℚ) / 2 ^ 53 := d.fraction_isDouble.abs_value_sub_le
    _ ≤ 1 / 2 ^ 53 := by
      apply div_le_div_of_nonneg_right _ (by positivity)
      rw [div_le_one (by norm_num)]
      exact hlt.le

theorem fraction_le_two (d : Duration) : d.fraction.value ≤ 2 := by
  have hlt : (d.subsecNanos : ℚ) < 1000000000 := by exact_mod_cast d.subsecNanos_lt
  have hnear := (abs_le.mp d.abs_fraction_sub_le).2
  norm_num at hnear ⊢
  linarith

theorem secsDouble_isDouble (h : d.secs < 60) :
    d.secsDouble.IsDouble (d.secs + d.fraction.value) := by
  apply Dyadic.addNat_isDouble
  have hsecs : (d.secs : ℚ) < 60 := by exact_mod_cast h
  have hfraction := d.fraction_le_two
  change (d.secs : ℚ) + d.fraction.value < 2 ^ 53
  norm_num
  linarith

/-- Both roundings together are off by far less than a nanosecond. -/
theorem abs_secsDouble_sub_le (h : d.secs < 60) :
    |d.secsDouble.value - d.nanos / 1000000000| ≤ 1 / 2 ^ 46 := by
  have hsecs : (d.secs : ℚ) < 60 := by exact_mod_cast h
  have hwhole : (d.nanos : ℚ) / 1000000000 = d.secs + d.subsecNanos / 1000000000 := by
    have hsplit : d.nanos = d.secs * 1000000000 + d.subsecNanos := by
      rw [secs, subsecNanos]
      omega
    rw [hsplit]
    push_cast
    ring
  have hsum : |d.secsDouble.value - (d.secs + d.fraction.value)| ≤ 62 / 2 ^ 53 := by
    refine (secsDouble_isDouble h).abs_value_sub_le.trans ?_
    apply div_le_div_of_nonneg_right _ (by positivity)
    linarith [d.fraction_le_two]
  calc |d.secsDouble.value - d.nanos / 1000000000|
      ≤ |d.secsDouble.value - (d.secs + d.fraction.value)| +
        |d.secs + d.fraction.value - d.nanos / 1000000000| := abs_sub_le ..
    _ ≤ 62 / 2 ^ 53 + 1 / 2 ^ 53 := by
      apply add_le_add hsum
      rw [hwhole, add_sub_add_left_eq_sub]
      exact d.abs_fraction_sub_le
    _ ≤ 1 / 2 ^ 46 := by norm_num

/-- The tenths are within half a tenth of the duration itself, ties of the double included. -/
theorem tenths_secsDouble_near (h : d.secs < 60) :
    Form.tenths.Near d.nanos (d.secsDouble.tenths * 100000000) := by
  have htenths := abs_le.mp d.secsDouble.tenths_roundsTo.near
  have hdouble := abs_le.mp (abs_secsDouble_sub_le h)
  norm_num at hdouble htenths
  -- Strictly less than one nanosecond more than half a tenth is no more than half a tenth.
  have hlow : (d.nanos : ℚ) < (d.secsDouble.tenths * 100000000 + 50000001 : ℕ) := by
    push_cast
    linarith
  have hhigh : ((d.secsDouble.tenths * 100000000 : ℕ) : ℚ) < (d.nanos + 50000001 : ℕ) := by
    push_cast
    linarith
  exact ⟨Nat.le_of_lt_succ (by exact_mod_cast hlow), Nat.le_of_lt_succ (by exact_mod_cast hhigh)⟩

/-! ### What is shown -/

def form (d : Duration) : Form :=
  if d.secs = 0 then .millis else if d.secs < 60 then .tenths else .minutes

/-- The time that the text of a duration shows. -/
def shown (d : Duration) : ℕ :=
  match d.form with
  | .millis => d.millis * 1000000
  | .tenths => d.secsDouble.tenths * 100000000
  | .minutes => d.secs * 1000000000

theorem shown_cases (d : Duration) :
    d.form = .millis ∧ d.nanos < 1000000000 ∧ d.shown = d.nanos / 1000000 * 1000000 ∨
    d.form = .tenths ∧ 1000000000 ≤ d.nanos ∧ d.nanos < 60000000000 ∧
      d.shown = d.secsDouble.tenths * 100000000 ∧ Form.tenths.Near d.nanos d.shown ∨
    d.form = .minutes ∧ 60000000000 ≤ d.nanos ∧
      d.shown = d.nanos / 1000000000 * 1000000000 := by
  by_cases hzero : d.secs = 0
  · have hform : d.form = .millis := if_pos hzero
    have : d.nanos < 1000000000 := by rw [secs] at hzero; omega
    exact .inl ⟨hform, this, by rw [shown, hform, millis]⟩
  by_cases hminute : d.secs < 60
  · have hform : d.form = .tenths := by rw [form, if_neg hzero, if_pos hminute]
    have hshown : d.shown = d.secsDouble.tenths * 100000000 := by rw [shown, hform]
    have hnear := tenths_secsDouble_near hminute
    rw [← hshown] at hnear
    rw [secs] at hzero hminute
    exact .inr (.inl ⟨hform, by omega, by omega, hshown, hnear⟩)
  · have hform : d.form = .minutes := by rw [form, if_neg hzero, if_neg hminute]
    have : 60000000000 ≤ d.nanos := by rw [secs] at hminute; omega
    exact .inr (.inr ⟨hform, this, by rw [shown, hform, secs]⟩)

theorem shown_near (d : Duration) : d.form.Near d.nanos d.shown := by
  rcases d.shown_cases with ⟨hform, -, hshown⟩ | ⟨hform, -, -, -, hnear⟩ | ⟨hform, -, hshown⟩
  · rw [hform, hshown]
    constructor <;> omega
  · rw [hform]
    exact hnear
  · rw [hform, hshown]
    constructor <;> omega

theorem shown_mono (h : d ≤ d') : d.shown ≤ d'.shown := by
  have hnanos : d.nanos ≤ d'.nanos := h
  rcases Nat.eq_or_lt_of_le hnanos with heq | hlt
  · rw [Duration.ext heq]
  -- Where the forms change, the shown times are on either side of a second or of a minute.
  rcases d.shown_cases with ⟨-, _, _⟩ | ⟨-, _, _, _, _, _⟩ | ⟨-, _, _⟩ <;>
    rcases d'.shown_cases with ⟨-, _, _⟩ | ⟨-, _, _, _, _, _⟩ | ⟨-, _, _⟩ <;> omega

theorem reading?_text (d : Duration) : reading? d.text = some ⟨d.form, d.shown⟩ := by
  have hlongest : longest.secs = 18446744073709551615 := by decide
  rcases d.shown_cases with ⟨hform, hsecond, -⟩ | ⟨hform, hsecond, hminute, hshown, hnear⟩ |
    ⟨hform, hminute, -⟩
  · have hsecs : d.secs = 0 := Nat.div_eq_of_lt hsecond
    have hmillis : d.millis ≤ longest.secs := by rw [hlongest, millis]; omega
    rw [text, if_pos hsecs, shown, hform, reading?_millis hmillis]
  · have hsecs : ¬ d.secs = 0 ∧ d.secs < 60 := by rw [secs]; omega
    have htenths : d.secsDouble.tenths / 10 ≤ longest.secs := by
      have := hnear.2
      rw [hlongest]
      omega
    rw [text, if_neg hsecs.1, if_pos hsecs.2, shown, hform,
      reading?_tenths htenths (Nat.mod_lt _ (by decide)), Nat.div_add_mod]
  · have hsecs : ¬ d.secs = 0 ∧ ¬ d.secs < 60 := by rw [secs]; omega
    have hminutes : d.secs / 60 ≤ longest.secs := by
      have := d.isLt
      rw [hlongest, secs]
      omega
    rw [text, if_neg hsecs.1, if_neg hsecs.2, shown, hform,
      reading?_minutes hminutes (Nat.mod_lt _ (by decide)), Nat.div_add_mod]

theorem reading?_text_eq_tenths_iff (h : d.form = .tenths) {tenths : ℕ} :
    reading? d.text = some ⟨.tenths, tenths * 100000000⟩ ↔
      RoundsTo (10 * d.secsDouble.value) tenths := by
  have hround := d.secsDouble.tenths_roundsTo
  rw [reading?_text, shown, h]
  constructor
  · intro hread
    have hnanos := congrArg Reading.nanos (Option.some.inj hread)
    rwa [← Nat.eq_of_mul_eq_mul_right (by decide) hnanos]
  · intro htenths
    rw [htenths.unique hround]

/-- The text of every duration is read back as a time: in whole milliseconds and in minutes and
seconds the duration cut off, and in tenths of a second within half a tenth of it. The tenths are
those of the double, which has been rounded twice on the way. A longer duration shows no shorter
time, whatever the forms. -/
theorem text_accurate_monotone :
    (∀ d : Duration, ∃ shown, reading? d.text = some ⟨d.form, shown⟩ ∧ d.form.Near d.nanos shown) ∧
    (∀ d : Duration, d.form = .tenths →
      (∃ fraction : Dyadic, fraction.IsDouble (d.subsecNanos / 1000000000) ∧
        d.secsDouble.IsDouble (d.secs + fraction.value)) ∧
      ∀ tenths, reading? d.text = some ⟨.tenths, tenths * 100000000⟩ ↔
        RoundsTo (10 * d.secsDouble.value) tenths) ∧
    ∀ d d' : Duration, d ≤ d' → ∀ reading reading', reading? d.text = some reading →
      reading? d'.text = some reading' → reading.nanos ≤ reading'.nanos := by
  refine ⟨fun d => ⟨d.shown, reading?_text d, d.shown_near⟩, fun d hform => ⟨?_, ?_⟩, ?_⟩
  · have hsecs : d.secs < 60 := by
      by_contra hminutes
      rw [form, if_neg hminutes] at hform
      split at hform <;> cases hform
    exact ⟨d.fraction, d.fraction_isDouble, secsDouble_isDouble hsecs⟩
  · intro tenths
    exact reading?_text_eq_tenths_iff hform
  · intro d d' h reading reading' hreading hreading'
    rw [reading?_text] at hreading hreading'
    obtain rfl := Option.some.inj hreading
    obtain rfl := Option.some.inj hreading'
    exact shown_mono h

/-- At 59.95 s, which is rounded up, and at a minute, the same time is shown in two forms. -/
theorem text_accurate_monotone_minute :
    let d : Duration := ⟨59950000000, by decide⟩
    let d' : Duration := ⟨60000000000, by decide⟩
    d.text = "60.0s".toList ∧ d'.text = "1m 0s".toList ∧
    RoundsTo (10 * d.secsDouble.value) 600 ∧
    ∃ reading reading', reading? d.text = some reading ∧ reading? d'.text = some reading' ∧
      reading.nanos ≤ reading'.nanos := by
  intro d d'
  obtain ⟨-, hdouble, hmono⟩ := text_accurate_monotone
  have hreading : reading? d.text = some ⟨.tenths, 600 * 100000000⟩ := by decide +kernel
  have hreading' : reading? d'.text = some ⟨.minutes, 60000000000⟩ := by decide +kernel
  have hround := ((hdouble d (by decide)).2 600).mp hreading
  exact ⟨by decide +kernel, by decide +kernel, hround, _, _, hreading, hreading',
    hmono d d' (by decide) _ _ hreading hreading'⟩

end NatBehavior.Duration
