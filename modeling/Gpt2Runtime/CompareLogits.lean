import Gpt2Runtime.Lib.LittleEndian
import Gpt2Runtime.Lib.Loop
import Gpt2Runtime.Lib.Maximum
/-
# The comparison of logits files (`validation/compare_logits.py`)

| here | there |
| --- | --- |
| `PyFloat`               | Python's `float`; nothing is assumed about the operations |
| `readFloats`            | `read_floats` (`compare_logits.py:12-18`) |
| `validTolerance`        | `valid_tolerance` (`:21-24`) |
| `argmax`                | `argmax` (`:27-28`): `max` keeps the first of equal keys |
| `Tally`, `tallyStep`    | the variables of the loop of `main` and its body (`:59-80`) |
| `Args`                  | the arguments `argparse` reads (`:32-39`) |
| `Report`                | the values `main` prints (`:85-95`), before formatting |
| `Verdict`               | the four ways to end (`:97-107`); `pass` is exit status 0 |
| `compare`               | `main` from the parsed arguments on (`:41-107`) |
-/

namespace Gpt2Runtime

open LittleEndian

variable {β : Type}

/-- Python's numbers. -/
class PyFloat (β : Type) extends Zero β, Add β, Sub β, Mul β, Div β where
  /-- `struct.unpack` of one `f`. -/
  unpack : BitVec 32 → β
  /-- `1.0e-6`. -/
  millionth : β
  abs : β → β
  /-- `a < b`. -/
  lt : β → β → Bool
  isFinite : β → Bool

namespace CompareLogits

inductive PyExc where
  | fileNotFound (path : String)
  | valueError (what : String)
deriving DecidableEq, Repr

def raiseIf (c : Prop) [Decidable c] (e : PyExc) : Except PyExc Unit := if c then .error e else .ok ()

structure Args (β : Type) where
  candidate : String
  reference : String
  expectedCount : Int
  absoluteTolerance : β
  relativeTolerance : β
  requireBitIdentical : Bool

structure Tally (β : Type) where
  maxAbsolute : β
  maxAbsoluteIndex : Nat
  maxRelative : β
  maxRelativeIndex : Nat
  violations : Nat
  firstViolation : Option Nat

structure Report (β : Type) where
  comparedValues : Nat
  byteIdentical : Bool
  tally : Tally β
  candidateArgmax : Nat
  referenceArgmax : Nat

inductive Verdict where
  | pass
  | bytesDiffer
  | toleranceExceeded
  | argmaxDiffers
deriving DecidableEq, Repr

variable [PyFloat β]

open PyFloat (unpack lt isFinite)

def readFloats (β : Type) [PyFloat β] (files : String → Option (List UInt8)) (path : String) :
    Except PyExc (List UInt8 × List β) :=
  match files path with
  | none => .error (.fileNotFound path)
  | some payload => do
    raiseIf (payload = []) (.valueError (path ++ " is empty"))
    raiseIf (payload.length % 4 ≠ 0) (.valueError (path ++ " is not a float32 array"))
    pure (payload, (decodeWords payload).map unpack)

def validTolerance (value : β) (name : String) : Except PyExc Unit :=
  raiseIf (isFinite value = false ∨ lt value 0 = true) (.valueError (name ++ " must be finite and nonnegative"))

def argmax (values : List β) : Nat := Maximum.position lt values

def absolute (actual expected : β) : β := PyFloat.abs (actual - expected)

/-- `max(abs(expected), 1.0e-6)` returns its first argument unless the second is greater. -/
def relative (actual expected : β) : β :=
  absolute actual expected / (if lt (PyFloat.abs expected) PyFloat.millionth then PyFloat.millionth else PyFloat.abs expected)

def threshold (args : Args β) (expected : β) : β := args.absoluteTolerance + args.relativeTolerance * PyFloat.abs expected

def violates (args : Args β) (actual expected : β) : Bool := lt (threshold args expected) (absolute actual expected)

/-- The body of the loop. -/
def tallyStep (args : Args β) (t : Tally β) (index : Nat) (actual expected : β) : Except PyExc (Tally β) := do
  raiseIf (isFinite actual = false ∨ isFinite expected = false) (.valueError ("non-finite value at index " ++ toString index))
  let t := if lt t.maxAbsolute (absolute actual expected) then
      { t with maxAbsolute := absolute actual expected, maxAbsoluteIndex := index } else t
  let t := if lt t.maxRelative (relative actual expected) then
      { t with maxRelative := relative actual expected, maxRelativeIndex := index } else t
  pure (if violates args actual expected then
    { t with violations := t.violations + 1, firstViolation := t.firstViolation <|> some index } else t)

/-- The loop over the pairs from position `index` on. -/
def tallyFrom (args : Args β) : Tally β → Nat → List (β × β) → Except PyExc (Tally β)
  | t, _, [] => .ok t
  | t, index, (actual, expected) :: rest => do
    let t ← tallyStep args t index actual expected
    tallyFrom args t (index + 1) rest

def verdict (args : Args β) (report : Report β) : Verdict :=
  if args.requireBitIdentical = true ∧ report.byteIdentical = false then .bytesDiffer
  else if report.tally.violations ≠ 0 then .toleranceExceeded
  else if report.candidateArgmax ≠ report.referenceArgmax then .argmaxDiffers
  else .pass

def compare (files : String → Option (List UInt8)) (args : Args β) : Except PyExc (Report β × Verdict) := do
  raiseIf (args.expectedCount ≤ 0) (.valueError "--expected-count must be positive")
  validTolerance args.absoluteTolerance "--absolute-tolerance"
  validTolerance args.relativeTolerance "--relative-tolerance"
  let (candidateBytes, candidate) ← readFloats β files args.candidate
  let (referenceBytes, reference) ← readFloats β files args.reference
  raiseIf (candidate.length ≠ reference.length)
    (.valueError ("length mismatch: " ++ toString candidate.length ++ " != " ++ toString reference.length))
  raiseIf ((candidate.length : Int) ≠ args.expectedCount)
    (.valueError ("element count mismatch: " ++ toString candidate.length ++ " != " ++ toString args.expectedCount))
  let tally ← tallyFrom args ⟨0, 0, 0, 0, 0, none⟩ 0 (candidate.zip reference)
  let report : Report β :=
    { comparedValues := candidate.length, byteIdentical := candidateBytes == referenceBytes, tally
      candidateArgmax := argmax candidate, referenceArgmax := argmax reference }
  pure (report, verdict args report)

/-! ## The loop -/

variable {args : Args β}

theorem raiseIf_ok_iff {c : Prop} [Decidable c] {e : PyExc} {u : Unit} : raiseIf c e = .ok u ↔ ¬c := by
  unfold raiseIf
  split <;> simp_all

theorem raiseIf_bind_ok {γ : Type} {c : Prop} [Decidable c] {e : PyExc} {f : Unit → Except PyExc γ} {b : γ} :
    (raiseIf c e >>= f) = .ok b ↔ ¬c ∧ f () = .ok b := by
  unfold raiseIf
  by_cases h : c <;> simp [h]

/-- Both numbers of a pair are finite. -/
def Finite (p : β × β) : Prop := isFinite p.1 = true ∧ isFinite p.2 = true

def absolutes (pairs : List (β × β)) : List β := pairs.map fun p => absolute p.1 p.2

def relatives (pairs : List (β × β)) : List β := pairs.map fun p => relative p.1 p.2

/-- The variables of the loop behind the pairs, from their values before. -/
def Tally.over (args : Args β) (t : Tally β) (index : Nat) (pairs : List (β × β)) : Tally β where
  maxAbsolute := (Maximum.scan lt (t.maxAbsoluteIndex, t.maxAbsolute) index (absolutes pairs)).2
  maxAbsoluteIndex := (Maximum.scan lt (t.maxAbsoluteIndex, t.maxAbsolute) index (absolutes pairs)).1
  maxRelative := (Maximum.scan lt (t.maxRelativeIndex, t.maxRelative) index (relatives pairs)).2
  maxRelativeIndex := (Maximum.scan lt (t.maxRelativeIndex, t.maxRelative) index (relatives pairs)).1
  violations := t.violations + pairs.countP fun p => violates args p.1 p.2
  firstViolation := t.firstViolation <|> (pairs.findIdx? fun p => violates args p.1 p.2).map (index + ·)

theorem tallyStep_ok_iff {t t' : Tally β} {index : Nat} {actual expected : β} :
    tallyStep args t index actual expected = .ok t' ↔
      Finite (actual, expected) ∧ t' = t.over args index [(actual, expected)] := by
  have hfinite : (¬(isFinite actual = false ∨ isFinite expected = false)) ↔ Finite (actual, expected) := by
    simp [Finite]
  unfold tallyStep
  rw [raiseIf_bind_ok, hfinite]
  refine and_congr_right fun _ => ?_
  obtain ⟨a, i, r, j, n, first⟩ := t
  rw [show ∀ x : Tally β, ((pure x : Except PyExc (Tally β)) = .ok t') = (x = t') from fun x => by simp [pure, Except.pure], eq_comm]
  simp only [Tally.over, absolutes, relatives, List.map_cons, List.map_nil, Maximum.scan, List.countP_cons, List.countP_nil,
    List.findIdx?_cons, List.findIdx?_nil]
  cases ha : lt a (absolute actual expected) <;> cases hr : lt r (relative actual expected) <;>
    cases hv : violates args actual expected <;> simp [hr]

theorem Tally.over_cons (t : Tally β) (index : Nat) (p : β × β) (pairs : List (β × β)) :
    (t.over args index [p]).over args (index + 1) pairs = t.over args index (p :: pairs) := by
  have hfind : ∀ q : β × β → Bool, ((t.firstViolation <|> ([p].findIdx? q).map (index + ·)) <|>
      (pairs.findIdx? q).map (index + 1 + ·)) = (t.firstViolation <|> ((p :: pairs).findIdx? q).map (index + ·)) := by
    intro q
    have hshift : (pairs.findIdx? q).map (index + 1 + ·) = ((pairs.findIdx? q).map (· + 1)).map (index + ·) := by
      rw [Option.map_map]
      exact congrArg (Option.map · _) (funext fun n => by simp only [Function.comp_apply]; omega)
    rw [List.findIdx?_cons, List.findIdx?_cons, hshift]
    cases t.firstViolation <;> cases q p <;> simp
  have hcount : ∀ q : β × β → Bool, t.violations + [p].countP q + pairs.countP q = t.violations + (p :: pairs).countP q := by
    intro q
    rw [List.countP_cons, List.countP_cons, List.countP_nil]
    omega
  unfold Tally.over
  simp only [hfind, hcount]
  simp only [absolutes, relatives, List.map_cons, List.map_nil, Maximum.scan]

theorem Tally.over_nil (t : Tally β) (index : Nat) : t.over args index [] = t := by
  obtain ⟨a, i, r, j, n, first⟩ := t
  simp [Tally.over, absolutes, relatives, Maximum.scan]

/-- **The whole loop**: it ends exactly on finite numbers. -/
theorem tallyFrom_ok_iff {t t' : Tally β} {index : Nat} {pairs : List (β × β)} :
    tallyFrom args t index pairs = .ok t' ↔ (∀ p ∈ pairs, Finite p) ∧ t' = t.over args index pairs := by
  induction pairs generalizing t index with
  | nil =>
    rw [tallyFrom, Tally.over_nil, Except.ok.injEq, eq_comm]
    simp
  | cons p pairs ih =>
    rw [tallyFrom, List.forall_mem_cons, ← Tally.over_cons]
    cases hstep : tallyStep args t index p.1 p.2 with
    | error e =>
      simp only [Loop.error_bind, reduceCtorEq, false_iff]
      rintro ⟨⟨hfinite, -⟩, -⟩
      have hok : tallyStep args t index p.1 p.2 = .ok (t.over args index [p]) := tallyStep_ok_iff.2 ⟨hfinite, rfl⟩
      rw [hstep] at hok
      cases hok
    | ok t₁ =>
      obtain ⟨hfinite, rfl⟩ := tallyStep_ok_iff.1 hstep
      rw [Loop.ok_bind, ih]
      simp [hfinite]

/-! ## A comparison -/

/-- The numbers of a file. -/
def floats (β : Type) [PyFloat β] (bytes : List UInt8) : List β := (decodeWords bytes).map unpack

def pairs (β : Type) [PyFloat β] (candidate reference : List UInt8) : List (β × β) := (floats β candidate).zip (floats β reference)

/-- What a comparison asks for: two files of the expected count of finite numbers, and usable tolerances. -/
structure Compares (files : String → Option (List UInt8)) (args : Args β) (candidate reference : List UInt8) : Prop where
  reads_candidate : files args.candidate = some candidate
  reads_reference : files args.reference = some reference
  positive : 0 < args.expectedCount
  candidate_length : (candidate.length : Int) = 4 * args.expectedCount
  reference_length : (reference.length : Int) = 4 * args.expectedCount
  absolute_tolerance : isFinite args.absoluteTolerance = true ∧ lt args.absoluteTolerance 0 = false
  relative_tolerance : isFinite args.relativeTolerance = true ∧ lt args.relativeTolerance 0 = false
  finite : ∀ p ∈ pairs β candidate reference, Finite p

def reportOf (args : Args β) (candidate reference : List UInt8) : Report β where
  comparedValues := (floats β candidate).length
  byteIdentical := candidate == reference
  tally := (⟨0, 0, 0, 0, 0, none⟩ : Tally β).over args 0 (pairs β candidate reference)
  candidateArgmax := argmax (floats β candidate)
  referenceArgmax := argmax (floats β reference)

@[simp] theorem length_floats (bytes : List UInt8) : (floats β bytes).length = bytes.length / 4 := by
  rw [floats, List.length_map, length_decodeWords]

theorem readFloats_ok_iff {files : String → Option (List UInt8)} {path : String} {payload : List UInt8} {values : List β} :
    readFloats β files path = .ok (payload, values) ↔
      files path = some payload ∧ payload ≠ [] ∧ payload.length % 4 = 0 ∧ values = floats β payload := by
  unfold readFloats
  cases hfile : files path with
  | none => simp
  | some bytes =>
    simp only [raiseIf_bind_ok, Option.some.injEq, not_not]
    rw [show ∀ x y : List UInt8 × List β, ((pure x : Except PyExc _) = .ok y) = (x = y) from fun x y => by simp [pure, Except.pure],
      Prod.mk.injEq]
    constructor
    · rintro ⟨hne, hlength, rfl, rfl⟩
      exact ⟨rfl, hne, hlength, rfl⟩
    · rintro ⟨rfl, hne, hlength, rfl⟩
      exact ⟨hne, hlength, rfl, rfl⟩

theorem validTolerance_ok_iff {value : β} {name : String} :
    validTolerance value name = .ok () ↔ isFinite value = true ∧ lt value 0 = false := by
  unfold validTolerance
  rw [raiseIf_ok_iff]
  simp

/-- **What a comparison returns.** -/
theorem compare_ok_iff {files : String → Option (List UInt8)} {out : Report β × Verdict} : compare files args = .ok out ↔
    ∃ candidate reference, Compares files args candidate reference ∧
      out = (reportOf args candidate reference, verdict args (reportOf args candidate reference)) := by
  unfold compare
  rw [raiseIf_bind_ok, Int.not_le]
  constructor
  · rintro ⟨hpositive, h⟩
    obtain ⟨⟨⟩, habsolute, h⟩ := Loop.bind_eq_ok.1 h
    obtain ⟨⟨⟩, hrelative, h⟩ := Loop.bind_eq_ok.1 h
    obtain ⟨⟨candidate, values⟩, hcandidate, h⟩ := Loop.bind_eq_ok.1 h
    obtain ⟨⟨reference, values'⟩, hreference, h⟩ := Loop.bind_eq_ok.1 h
    obtain ⟨hreadC, -, hmodC, rfl⟩ := readFloats_ok_iff.1 hcandidate
    obtain ⟨hreadR, -, hmodR, rfl⟩ := readFloats_ok_iff.1 hreference
    obtain ⟨hlength, h⟩ := raiseIf_bind_ok.1 h
    obtain ⟨hcount, h⟩ := raiseIf_bind_ok.1 h
    obtain ⟨tally, htally, h⟩ := Loop.bind_eq_ok.1 h
    obtain ⟨hfinite, rfl⟩ := tallyFrom_ok_iff.1 htally
    rw [not_not, length_floats, length_floats] at hlength
    rw [not_not, length_floats] at hcount
    exact ⟨candidate, reference, ⟨hreadC, hreadR, hpositive, by omega, by omega, validTolerance_ok_iff.1 habsolute,
      validTolerance_ok_iff.1 hrelative, hfinite⟩, (Except.ok.inj h).symm⟩
  · rintro ⟨candidate, reference, h, rfl⟩
    have hlengthC := h.candidate_length
    have hlengthR := h.reference_length
    have hpositive := h.positive
    have hneC : candidate ≠ [] := by
      rintro rfl
      simp at hlengthC
      omega
    have hneR : reference ≠ [] := by
      rintro rfl
      simp at hlengthR
      omega
    refine ⟨hpositive, ?_⟩
    simp only [validTolerance_ok_iff.2 h.absolute_tolerance, validTolerance_ok_iff.2 h.relative_tolerance,
      readFloats_ok_iff.2 ⟨h.reads_candidate, hneC, by omega, rfl⟩,
      readFloats_ok_iff.2 ⟨h.reads_reference, hneR, by omega, rfl⟩, Loop.ok_bind, raiseIf_bind_ok, not_not]
    refine ⟨by rw [length_floats, length_floats]; omega, by rw [length_floats]; omega, ?_⟩
    rw [show tallyFrom args ⟨0, 0, 0, 0, 0, none⟩ 0 ((floats β candidate).zip (floats β reference)) = .ok _ from
      tallyFrom_ok_iff.2 ⟨h.finite, rfl⟩]
    rfl

omit [PyFloat β] in
theorem verdict_eq_pass_iff {report : Report β} : verdict args report = .pass ↔
    (args.requireBitIdentical = true → report.byteIdentical = true) ∧ report.tally.violations = 0 ∧
      report.candidateArgmax = report.referenceArgmax := by
  unfold verdict
  split
  · next hbytes => simp [hbytes]
  · next hbytes =>
    have hidentical : args.requireBitIdentical = true → report.byteIdentical = true := by simpa using hbytes
    split
    · next hviolations => simp [hviolations]
    · next hviolations =>
      rw [not_not] at hviolations
      split
      · next hargmax => simp [hargmax]
      · next hargmax => simpa [hviolations, not_not.1 hargmax] using hidentical

/-- The rules of Python's floats a comparison of equal numbers rests on. -/
structure Exact (β : Type) [PyFloat β] : Prop where
  sub_self : ∀ x : β, isFinite x = true → PyFloat.abs (x - x) = 0
  threshold : ∀ a r x : β, isFinite a = true → lt a 0 = false → isFinite r = true → lt r 0 = false → isFinite x = true →
    lt (a + r * PyFloat.abs x) 0 = false

/-- **Equal files pass**, exactly if they are what a comparison asks for. -/
theorem compare_equal_iff (hexact : Exact β) {files : String → Option (List UInt8)} {bytes : List UInt8}
    (hcandidate : files args.candidate = some bytes) (hreference : files args.reference = some bytes) :
    (∃ report, compare files args = .ok (report, .pass)) ↔
      0 < args.expectedCount ∧ (bytes.length : Int) = 4 * args.expectedCount ∧
        (isFinite args.absoluteTolerance = true ∧ lt args.absoluteTolerance 0 = false) ∧
        (isFinite args.relativeTolerance = true ∧ lt args.relativeTolerance 0 = false) ∧
        ∀ x ∈ floats β bytes, isFinite x = true := by
  have hpairs : pairs β bytes bytes = (floats β bytes).map fun x => (x, x) := by
    rw [pairs, List.zip_eq_zipWith, List.zipWith_self]
  constructor
  · rintro ⟨report, h⟩
    obtain ⟨candidate, reference, hcompares, -⟩ := compare_ok_iff.1 h
    obtain rfl := Option.some.inj (hcandidate.symm.trans hcompares.reads_candidate)
    obtain rfl := Option.some.inj (hreference.symm.trans hcompares.reads_reference)
    refine ⟨hcompares.positive, hcompares.candidate_length, hcompares.absolute_tolerance, hcompares.relative_tolerance, ?_⟩
    intro x hx
    exact (hcompares.finite (x, x) (by rw [hpairs]; exact List.mem_map_of_mem hx)).1
  · rintro ⟨hpositive, hlength, habsolute, hrelative, hfinite⟩
    have hcompares : Compares files args bytes bytes := by
      refine ⟨hcandidate, hreference, hpositive, hlength, hlength, habsolute, hrelative, fun p hp => ?_⟩
      rw [hpairs] at hp
      obtain ⟨x, hx, rfl⟩ := List.mem_map.1 hp
      exact ⟨hfinite x hx, hfinite x hx⟩
    have hclose : (reportOf args bytes bytes).tally.violations = 0 := by
      rw [show (reportOf args bytes bytes).tally.violations = _ from Nat.zero_add _, List.countP_eq_zero, hpairs]
      intro p hp
      obtain ⟨x, hx, rfl⟩ := List.mem_map.1 hp
      have hzero : absolute x x = 0 := hexact.sub_self x (hfinite x hx)
      rw [violates, hzero, Bool.not_eq_true]
      exact hexact.threshold _ _ _ habsolute.1 habsolute.2 hrelative.1 hrelative.2 (hfinite x hx)
    have hpass : verdict args (reportOf args bytes bytes) = .pass :=
      verdict_eq_pass_iff.2 ⟨fun _ => beq_self_eq_true bytes, hclose, rfl⟩
    exact ⟨reportOf args bytes bytes, compare_ok_iff.2 ⟨bytes, bytes, hcompares, by rw [hpass]⟩⟩

/-- **A comparison tells the truth.** It runs to its verdict exactly on two files of the expected number of finite
floats. It passes exactly if no value is out of tolerance, the largest values stand at the same first position, and the
bytes agree where that is required. The counts and positions it prints are those of the violations and, if the errors
compare like numbers, of the first largest errors. -/
theorem compare_exact (files : String → Option (List UInt8)) (args : Args β) :
    ((∃ out, compare files args = .ok out) ↔ ∃ candidate reference, Compares files args candidate reference) ∧
    ∀ report v, compare files args = .ok (report, v) → ∃ candidate reference, Compares files args candidate reference ∧
      (v = .pass ↔ (args.requireBitIdentical = true → candidate = reference) ∧
        (∀ p ∈ pairs β candidate reference, violates args p.1 p.2 = false) ∧
        argmax (floats β candidate) = argmax (floats β reference)) ∧
      (report.byteIdentical = true ↔ candidate = reference) ∧
      report.tally.violations = (pairs β candidate reference).countP (fun p => violates args p.1 p.2) ∧
      report.tally.firstViolation = (pairs β candidate reference).findIdx? (fun p => violates args p.1 p.2) ∧
      (Maximum.Ordered lt (0 :: absolutes (pairs β candidate reference)) →
        Maximum.FirstLargest lt 0 (absolutes (pairs β candidate reference))
          (report.tally.maxAbsoluteIndex, report.tally.maxAbsolute)) ∧
      (Maximum.Ordered lt (0 :: relatives (pairs β candidate reference)) →
        Maximum.FirstLargest lt 0 (relatives (pairs β candidate reference))
          (report.tally.maxRelativeIndex, report.tally.maxRelative)) := by
  constructor
  · constructor
    · rintro ⟨out, h⟩
      obtain ⟨candidate, reference, hcompares, -⟩ := compare_ok_iff.1 h
      exact ⟨candidate, reference, hcompares⟩
    · rintro ⟨candidate, reference, hcompares⟩
      exact ⟨_, compare_ok_iff.2 ⟨candidate, reference, hcompares, rfl⟩⟩
  · intro report v h
    obtain ⟨candidate, reference, hcompares, hout⟩ := compare_ok_iff.1 h
    rw [Prod.mk.injEq] at hout
    obtain ⟨rfl, rfl⟩ := hout
    refine ⟨candidate, reference, hcompares, ?_, ?_, ?_, ?_, fun hordered => ?_, fun hordered => ?_⟩
    · have hcount : (reportOf args candidate reference).tally.violations = 0 ↔
          ∀ p ∈ pairs β candidate reference, violates args p.1 p.2 = false := by
        rw [show (reportOf args candidate reference).tally.violations = _ from Nat.zero_add _, List.countP_eq_zero]
        simp
      rw [verdict_eq_pass_iff, hcount]
      simp [reportOf]
    · simp [reportOf]
    · exact Nat.zero_add _
    · simp [reportOf, Tally.over]
    · exact Maximum.firstLargest_scan hordered
    · exact Maximum.firstLargest_scan hordered

/-- Integers in place of floats. -/
abbrev integers : PyFloat Int where
  unpack b := b.toInt
  millionth := 1
  abs x := x.natAbs
  lt a b := decide (a < b)
  isFinite _ := true

/-- Two files of two values, the second value off by one. -/
example : let _ := integers
    (compare (fun path => some (encodeWords (if path = "candidate" then [3, 8] else [3, 7])))
    (⟨"candidate", "reference", 2, 0, 0, false⟩ : Args Int)).toOption.map (fun out => (out.2, out.1.tally.firstViolation)) =
      some (.toleranceExceeded, some 1) := by
  decide

end CompareLogits

end Gpt2Runtime
