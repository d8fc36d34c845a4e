import TypedVariant.Proofs.Attempt
import TypedVariant.Proofs.Double.Value
import TypedVariant.Proofs.Variant.Building

/-!
# Values that are taken for the same variant

Constructors take values of several kinds for one and the same number. All of
these are numbers of that value themselves, and so they are equal across their
kinds: a map with such keys keeps apart what is kept apart once they are packed.
Truth values are the exception, as everything can be taken for one. Blocks of
bytes that spell the value that is no number are told apart by their spelling.
-/

namespace TypedVariant

namespace Double

/-- Equal doubles are the same multiple of the least one, if they are finite. -/
theorem units?_eq_of_equal {a b : Double} (hequal : a.equal b = true) : a.units? = b.units? := by
  cases a with
  | nan _ => simp [equal] at hequal
  | infinity _ =>
      cases b with
      | infinity _ => rfl
      | _ => simp [equal, units?] at hequal
  | finite _ _ _ =>
      cases b with
      | finite _ _ _ => simpa [equal, units?] using hequal
      | _ => simp [equal, units?] at hequal

@[simp]
theorem equal_nan (a : Double) (mark : Nat) : a.equal (.nan mark) = false := by
  cases a <;> rfl

theorem exists_nan_of_isSameNaN {a b : Double} (hsame : a.isSameNaN b = true) :
    ∃ mark, a = .nan mark ∧ b = .nan mark := by
  cases a with
  | nan mark =>
      cases b with
      | nan other =>
          obtain rfl : mark = other := by simpa [isSameNaN] using hsame
          exact ⟨mark, rfl, rfl⟩
      | _ => simp [isSameNaN] at hsame
  | _ => simp [isSameNaN] at hsame

theorem equal_of_units? {a b : Double} {units : Int} (ha : a.units? = some units)
    (hb : b.units? = some units) : a.equal b = true := by
  cases a with
  | finite _ _ _ =>
      cases b with
      | finite _ _ _ => simp [equal, ha, hb]
      | _ => simp [units?] at hb
  | _ => simp [units?] at ha

theorem whole?_eq_of_equal {a b : Double} (hequal : a.equal b = true) : a.whole? = b.whole? := by
  rw [whole?, whole?, units?_eq_of_equal hequal]

/-- Doubles that are equal to the same integer are equal. -/
theorem equal_of_whole? {a b : Double} {z : Int} (ha : a.whole? = some z)
    (hb : b.whole? = some z) : a.equal b = true := by
  exact equal_of_units? (whole?_eq_some_iff.mp ha) (whole?_eq_some_iff.mp hb)

end Double

namespace Native

variable {x y : Native}

/-- Whether a value is the double that is no number. -/
def isNaN : Native → Bool
  | double value => value.isNaN
  | _ => false

/-! ## Numbers -/

/-- Numbers are compared exactly, whatever kinds of values stand for them. -/
theorem equal_of_number? {n m : Number} (hx : x.number? = some n) (hy : y.number? = some m) :
    x.equal y = n.equal m := by
  cases x with
  | bool _ | int _ | double _ =>
      obtain rfl := Option.some.inj hx
      simp only [equal, hy]
  | _ => simp [number?] at hx

theorem same_of_number? {n m : Number} (hx : x.number? = some n) (hy : y.number? = some m)
    (hequal : n.equal m = true) : x.same y = true := by
  rw [same, equal_of_number? hx hy, hequal, Bool.or_true]

/-- Values that are equal to the same integer are the same. -/
theorem same_of_isNumber {z : Int} (hx : x.isNumber z = true) (hy : y.isNumber z = true) :
    x.same y = true := by
  unfold isNumber at hx hy
  split at hx
  next n hn =>
    split at hy
    next m hm =>
      -- Either number may be a double, which is compared with the integer exactly.
      apply same_of_number? hn hm
      cases n with
      | whole a =>
          obtain rfl : z = a := by simpa [Number.equal] using hx
          exact hy
      | real a =>
          have ha : a.whole? = some z := by simpa [Number.equal] using hx
          cases m with
          | whole b =>
              obtain rfl : z = b := by simpa [Number.equal] using hy
              exact hx
          | real b =>
              have hb : b.whole? = some z := by simpa [Number.equal] using hy
              exact Double.equal_of_whole? ha hb
    next => simp at hy
  next => simp at hx

theorem isNumber_of_asInteger {code : IntegerCode} {z : Int} (hvalue : x.asInteger code = .ok z) :
    x.isNumber z = true := by
  unfold asInteger at hvalue
  split at hvalue
  next => simp at hvalue
  next found _ =>
    split_ifs at hvalue with hnumber
    obtain rfl := Except.ok.inj hvalue
    simpa using hnumber

/-! ## Doubles -/

/-- What a value that is taken for a double may be: the double itself, an integer that it is equal
to, or a block of bytes that spells what is no number. -/
inductive IsTakenFor (value : Double) : Native → Prop
  | double : IsTakenFor value (.double value)
  | whole {x : Native} {z : Int} (hnumber : x.number? = some (.whole z))
      (hwhole : value.whole? = some z) : IsTakenFor value x
  | blob (kind : BlobKind) {data : List UInt8} (hmark : value = .nan (spelledMark data)) :
      IsTakenFor value (.blob kind data)

theorem whole?_of_ofNearest {z : Int} {nearest : Option Double} {value : Double}
    (hvalue : asDouble.ofNearest x z nearest = .ok value) : value.whole? = some z := by
  cases nearest with
  | none => cases hvalue
  | some found =>
      rw [asDouble.ofNearest] at hvalue
      split_ifs at hvalue with hwhole
      obtain rfl := Except.ok.inj hvalue
      exact hwhole

theorem eq_nan_of_ofNumeral {data : List UInt8} {value : Double}
    (hvalue : asDouble.ofNumeral x data = .ok value) : value = .nan (spelledMark data) := by
  unfold asDouble.ofNumeral at hvalue
  split at hvalue
  next => simp at hvalue
  next =>
    split_ifs at hvalue
    exact (Except.ok.inj hvalue).symm

theorem isTakenFor_of_asDouble {value : Double} (hvalue : x.asDouble = .ok value) :
    x.IsTakenFor value := by
  cases x with
  | double found =>
      obtain rfl := Except.ok.inj hvalue
      exact .double
  | bool _ | int _ => exact .whole rfl (whole?_of_ofNearest hvalue)
  | blob kind data =>
      cases kind with
      | fixed => cases hvalue
      | growable | view => exact .blob _ (eq_nan_of_ofNumeral hvalue)
  | _ => cases hvalue

/-- Blocks of different bytes spell different marks. -/
theorem spelledMark_inj {data other : List UInt8} (hmark : spelledMark data = spelledMark other) :
    data = other := by
  induction data generalizing other with
  | nil =>
      cases other with
      | nil => rfl
      | cons c others => simp [spelledMark] at hmark
  | cons b rest ih =>
      cases other with
      | nil => simp [spelledMark] at hmark
      | cons c others =>
          change 256 * spelledMark rest + b.toNat + 1 = 256 * spelledMark others + c.toNat + 1
            at hmark
          have hb := b.toNat_lt
          have hc := c.toNat_lt
          have hfirst : b.toNat = c.toNat := by omega
          have hrest : spelledMark rest = spelledMark others := by omega
          rw [UInt8.toNat_inj.mp hfirst, ih hrest]

/-- Values that are taken for equal doubles are equal: if they spell no number, they are not. -/
theorem same_of_equal_double {a b : Double} (hx : x.IsTakenFor a) (hy : y.IsTakenFor b)
    (hequal : a.equal b = true) : x.same y = true := by
  have hwhole := Double.whole?_eq_of_equal hequal
  cases hx with
  | double =>
      cases hy with
      | double => exact same_of_number? rfl rfl hequal
      | whole hnumber hb =>
          apply same_of_number? rfl hnumber
          simp [Number.equal, hwhole, hb]
      | blob _ hmark => simp [hmark] at hequal
  | whole hnumberX ha =>
      cases hy with
      | double =>
          apply same_of_number? hnumberX rfl
          simp [Number.equal, ← hwhole, ha]
      | whole hnumberY hb =>
          apply same_of_number? hnumberX hnumberY
          simpa [Number.equal, ha, hb] using hwhole
      | blob _ hmark => simp [hmark] at hequal
  | blob _ hmark => simp [hmark, Double.equal] at hequal

/-- Of the values that are not doubles, only blocks of equal bytes spell the same mark. -/
theorem same_of_nan {mark : Nat} (hx : x.IsTakenFor (.nan mark)) (hy : y.IsTakenFor (.nan mark))
    (hnumberX : x.isNaN = false) (hnumberY : y.isNaN = false) : x.same y = true := by
  cases hx with
  | double => simp [isNaN, Double.isNaN] at hnumberX
  | whole _ hwhole => simp [Double.whole?, Double.units?] at hwhole
  | blob _ hdata =>
      cases hy with
      | double => simp [isNaN, Double.isNaN] at hnumberY
      | whole _ hwhole => simp [Double.whole?, Double.units?] at hwhole
      | blob _ hother =>
          have hmark := Double.nan.inj (hdata.symm.trans hother)
          simp [same, isSameNaN, equal, spelledMark_inj hmark]

/-! ## Basic types -/

/-- Values of which a constructor makes equal variants are the same as keys, unless it is the one of
truth values. Neither may be the double that is no number, which a block of bytes could spell. -/
theorem same_of_equal_ofBasic {code : BasicCode} (hcode : code ≠ .boolean) {v w : Variant}
    (hx : Variant.ofBasic code x = .ok v) (hy : Variant.ofBasic code y = .ok w)
    (hnumberX : x.isNaN = false) (hnumberY : y.isNaN = false) (hequal : v.equal w = true) :
    x.same y = true := by
  cases code with
  | boolean => exact absurd rfl hcode
  | integer code =>
      obtain ⟨a, ha, rfl⟩ := map_eq_ok_iff.mp hx
      obtain ⟨b, hb, rfl⟩ := map_eq_ok_iff.mp hy
      obtain rfl : a = b := by simpa [Variant.equal] using hequal
      exact same_of_isNumber (isNumber_of_asInteger ha) (isNumber_of_asInteger hb)
  | double =>
      obtain ⟨a, ha, rfl⟩ := map_eq_ok_iff.mp hx
      obtain ⟨b, hb, rfl⟩ := map_eq_ok_iff.mp hy
      rw [Variant.equal, Double.same, Bool.or_eq_true] at hequal
      obtain hmarks | hequal := hequal
      · obtain ⟨mark, rfl, rfl⟩ := Double.exists_nan_of_isSameNaN hmarks
        exact same_of_nan (isTakenFor_of_asDouble ha) (isTakenFor_of_asDouble hb) hnumberX hnumberY
      · exact same_of_equal_double (isTakenFor_of_asDouble ha) (isTakenFor_of_asDouble hb) hequal
  | text code =>
      obtain ⟨a, rfl, -, rfl⟩ := Variant.ofText_eq_ok_iff.mp hx
      obtain ⟨b, rfl, -, rfl⟩ := Variant.ofText_eq_ok_iff.mp hy
      obtain rfl : a = b := by simpa [Variant.equal] using hequal
      simp [same, equal]

end Native

end TypedVariant
