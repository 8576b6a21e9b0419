import Mathlib.Data.List.Basic

/-! Strings of code points that may hold surrogates, their UTF-16 units, and the scanner
that reads units back. A high surrogate that a low one follows comes back as one code point. -/

namespace Foundations

abbrev CodePoint := Fin 0x110000

abbrev CodeUnit := Fin 0x10000

/-- A string as a list of code points. -/
abbrev Text := List CodePoint

namespace Text

def isHigh (c : ℕ) : Bool := 0xD800 ≤ c && c < 0xDC00

def isLow (c : ℕ) : Bool := 0xDC00 ≤ c && c < 0xE000

def isSurrogate (c : CodePoint) : Bool := isHigh c || isLow c

/-- No surrogates: the strings that have a UTF-8 encoding. -/
def isUnicode (s : Text) : Bool := s.all fun c => !isSurrogate c

/-- The units of one code point. -/
def units (c : CodePoint) : List CodeUnit :=
  if h : c.val < 0x10000 then [⟨c, h⟩]
  else
    [⟨0xD800 + (c - 0x10000) / 0x400, by have := c.2; omega⟩,
      ⟨0xDC00 + (c - 0x10000) % 0x400, by omega⟩]

def utf16 (s : Text) : List CodeUnit := s.flatMap units

/-- The code point of a surrogate pair. -/
def join (hi lo : CodeUnit) : CodePoint :=
  Fin.ofNat _ (0x10000 + (hi - 0xD800) * 0x400 + (lo - 0xDC00))

def widen (c : CodeUnit) : CodePoint := ⟨c, by have := c.2; omega⟩

def scan : List CodeUnit → Text
  | hi :: lo :: rest =>
    if isHigh hi && isLow lo then join hi lo :: scan rest else widen hi :: scan (lo :: rest)
  | [c] => [widen c]
  | [] => []

/-- Every surrogate belongs to a pair. -/
def isPaired : Text → Bool
  | hi :: lo :: rest =>
    if isHigh hi && isLow lo then isPaired rest else !isSurrogate hi && isPaired (lo :: rest)
  | [c] => !isSurrogate c
  | [] => true

/-- What comes back of a string. -/
def reread (s : Text) : Text := scan (utf16 s)

/-- The code points of a Lean string, which has no surrogates. -/
def ofString (s : String) : Text :=
  s.toList.map fun c => ⟨c.toNat, by
    have h : c.toNat < 0xD800 ∨ (0xDFFF < c.toNat ∧ c.toNat < 0x110000) := c.valid
    omega⟩

/-! ### Reading back -/

theorem isHigh_iff {c : ℕ} : isHigh c = true ↔ 0xD800 ≤ c ∧ c < 0xDC00 := by simp [isHigh]

theorem isLow_iff {c : ℕ} : isLow c = true ↔ 0xDC00 ≤ c ∧ c < 0xE000 := by simp [isLow]

theorem isSurrogate_iff {c : CodePoint} : isSurrogate c = true ↔ 0xD800 ≤ c.val ∧ c.val < 0xE000 := by
  rw [isSurrogate, Bool.or_eq_true, isHigh_iff, isLow_iff]
  omega

theorem units_of_lt {c : CodePoint} (h : c.val < 0x10000) : units c = [⟨c, h⟩] := dif_pos h

theorem scan_cons {c : CodeUnit} (h : isHigh c = false) (u : List CodeUnit) :
    scan (c :: u) = widen c :: scan u := by
  cases u with
  | nil => rfl
  | cons d u => simp [scan, h]

theorem scan_pair {hi lo : CodeUnit} (hh : isHigh hi = true) (hl : isLow lo = true)
    (u : List CodeUnit) : scan (hi :: lo :: u) = join hi lo :: scan u := by
  rw [scan, hh, hl]
  rfl

/-- The units of a code point that is no high surrogate come back as that code point. -/
theorem scan_units {c : CodePoint} (h : isHigh c = false) (u : List CodeUnit) :
    scan (units c ++ u) = c :: scan u := by
  by_cases hc : c.val < 0x10000
  · rw [units_of_lt hc]
    exact scan_cons (c := ⟨c, hc⟩) h u
  · rw [units, dif_neg hc]
    have hlt := c.2
    have hh : isHigh (0xD800 + (c.val - 0x10000) / 0x400) = true := isHigh_iff.2 (by omega)
    have hl : isLow (0xDC00 + (c.val - 0x10000) % 0x400) = true := isLow_iff.2 (by omega)
    refine (@scan_pair ⟨_, _⟩ ⟨_, _⟩ hh hl u).trans (congrArg (· :: scan u) (Fin.ext ?_))
    rw [join, Fin.val_ofNat, Nat.mod_eq_of_lt] <;> dsimp only <;> omega

theorem scan_cons_of_head (c : CodeUnit) {u : List CodeUnit}
    (h : ∀ d ∈ u.head?, isLow d = false) : scan (c :: u) = widen c :: scan u := by
  cases u with
  | nil => rfl
  | cons d u =>
    have hd : isLow d = false := h d rfl
    simp [scan, hd]

/-- Only a low surrogate has units that start with one. -/
theorem head_utf16 {d : CodePoint} (h : isLow d = false) (s : Text) :
    ∀ x ∈ (utf16 (d :: s)).head?, isLow x = false := by
  intro x hx
  rw [utf16, List.flatMap_cons] at hx
  by_cases hd : d.val < 0x10000
  · rw [units_of_lt hd] at hx
    obtain rfl : _ = x := Option.some.inj hx
    exact h
  · rw [units, dif_neg hd] at hx
    obtain rfl : _ = x := Option.some.inj hx
    have hlt := d.2
    rw [← Bool.not_eq_true, isLow_iff]
    dsimp only
    omega

theorem isUnicode_cons (c : CodePoint) (s : Text) :
    isUnicode (c :: s) = (!isSurrogate c && isUnicode s) := List.all_cons

theorem isSurrogate_join {hi lo : CodeUnit} (hh : isHigh hi = true) (hl : isLow lo = true) :
    isSurrogate (join hi lo) = false := by
  rw [isHigh_iff] at hh
  rw [isLow_iff] at hl
  rw [← Bool.not_eq_true, isSurrogate_iff, join, Fin.val_ofNat, Nat.mod_eq_of_lt (by omega)]
  omega

/-- A string comes back without surrogates exactly if every one of its own belongs to a pair. -/
theorem isUnicode_reread (s : Text) : isUnicode (reread s) = isPaired s := by
  unfold reread
  induction s using isPaired.induct with
  | case1 hi lo rest hpair ih =>
    rw [isPaired, if_pos hpair, ← ih]
    obtain ⟨hh, hl⟩ := Bool.and_eq_true_iff.1 hpair
    have hhi : hi.val < 0x10000 := by have := isHigh_iff.1 hh; omega
    have hlo : lo.val < 0x10000 := by have := isLow_iff.1 hl; omega
    have hunits : utf16 (hi :: lo :: rest) = ⟨hi, hhi⟩ :: ⟨lo, hlo⟩ :: utf16 rest := by
      rw [utf16, List.flatMap_cons, List.flatMap_cons, units_of_lt hhi, units_of_lt hlo]
      rfl
    rw [hunits, scan_pair hh hl, isUnicode_cons, isSurrogate_join hh hl]
    rfl
  | case2 hi lo rest hpair ih =>
    rw [isPaired, if_neg hpair, ← ih]
    cases hh : isHigh hi with
    | false =>
      rw [utf16, List.flatMap_cons, scan_units hh, isUnicode_cons]
      rfl
    | true =>
      have hl : isLow lo = false := by simpa [hh] using hpair
      have hhi : hi.val < 0x10000 := by have := isHigh_iff.1 hh; omega
      have hs : isSurrogate hi = true := by rw [isSurrogate, hh]; rfl
      have hscan : scan (utf16 (hi :: lo :: rest)) = hi :: scan (utf16 (lo :: rest)) := by
        rw [utf16, List.flatMap_cons, units_of_lt hhi]
        exact scan_cons_of_head ⟨hi, hhi⟩ (head_utf16 hl rest)
      rw [hscan, isUnicode_cons, hs]
  | case3 c =>
    have hone : utf16 [c] = units c ++ [] := by rw [utf16, List.flatMap_cons]; rfl
    rw [hone, isPaired]
    cases hh : isHigh c with
    | false =>
      rw [scan_units hh, isUnicode_cons]
      exact Bool.and_true _
    | true =>
      have hc : c.val < 0x10000 := by have := isHigh_iff.1 hh; omega
      rw [units_of_lt hc]
      change isUnicode [c] = _
      rw [isUnicode_cons]
      exact Bool.and_true _
  | case4 => rfl

/-- A string without surrogates comes back as it was. -/
theorem reread_of_isUnicode {s : Text} (h : isUnicode s = true) : reread s = s := by
  unfold reread
  induction s with
  | nil => rfl
  | cons c s ih =>
    rw [isUnicode_cons, Bool.and_eq_true, Bool.not_eq_true'] at h
    have hh : isHigh c = false := (Bool.or_eq_false_iff.1 h.1).1
    rw [utf16, List.flatMap_cons, scan_units hh]
    exact congrArg (c :: ·) (ih h.2)

theorem isUnicode_ofString (s : String) : isUnicode (ofString s) = true := by
  rw [isUnicode, ofString, List.all_map, List.all_eq_true]
  intro c _
  have h : c.toNat < 0xD800 ∨ (0xDFFF < c.toNat ∧ c.toNat < 0x110000) := c.valid
  rw [Function.comp, Bool.not_eq_true', ← Bool.not_eq_true, isSurrogate_iff]
  dsimp only
  omega

theorem ofString_injective : Function.Injective ofString := by
  intro a b h
  refine String.toList_injective (List.map_injective_iff.2 (fun c d hcd => ?_) h)
  exact Char.toNat_inj.1 (Fin.mk.inj_iff.1 hcd)

end Text
end Foundations
