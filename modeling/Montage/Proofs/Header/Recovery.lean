import Montage.Proofs.Double.Value
import Montage.Proofs.Header.WellFormed

/-!
# Headers are always read

A number of a header can fail to be read, and then its line is passed over.  `Header.attempt`
reads a header with these faults in sight: it recovers from a value that is not acceptable, and any
other fault would end it.  The only fault it meets is that of a number with too many digits, from
which it recovers; so it comes to the same as `Header.split` for every text, and what it comes to
is within bounds.
-/

namespace Montage

namespace Directive

/-! ### Values with their faults -/

/-- The number of given digits if it is positive. -/
def readPositive (digits : List Char) : Except Fault (Option Int) := do
  let n ← Text.readInteger (String.ofList digits)
  return if 0 < n then some n else none

/-- The double that is written in characters. -/
def readNumber (cs : List Char) : Except Fault Double :=
  match Text.readDouble? (String.ofList cs) with
  | some x => .ok x
  | none => .error (.refused (String.ofList cs))

/-- A value of a kind with the faults of its numbers, `none` if it does not have the form. -/
def Kind.convert? (k : Kind) (cs : List Char) : Option (Except Fault (Option Value)) :=
  match k with
  | name => (readName? cs).map fun s => .ok (some (.text s))
  | sides =>
    let width := cs.takeWhile Text.isDigit
    match cs.dropWhile Text.isDigit with
    | x :: height =>
      if Text.isLetter 'X' x && areDigits width && areDigits height then
        some do
          let w ← readPositive width
          let h ← readPositive height
          return do return .sides (← w) (← h)
      else none
    | [] => none
  | count => if areDigits cs then some do return (← readPositive cs).map .count else none
  | color => (readColor? cs).map fun s => .ok (some (.text s))
  | fraction => if isFraction cs then some do return some (.fraction (← readNumber cs)) else none

/-- The value that a line gives to a directive, with the faults of its numbers. -/
def convert? (d : Directive) (line : List Char) : Option (Except Fault (Option Value)) := do
  let rest ← Text.looseKeyword? d.keyword.toList (Text.trimStart line)
  let rest ← Text.afterBlanks? rest
  d.kind.convert? (Text.trimEnd rest)

/-- The first directive whose form a line has, with the value that the line gives to it. -/
def found? (line : List Char) : Option (Directive × Except Fault (Option Value)) :=
  all.findSome? fun d => (d.convert? line).map (d, ·)

/-- The change that a line makes to a configuration.  A value that is not acceptable changes
nothing; any other fault is passed on. -/
def attempt (line : List Char) (c : Config) : Except Fault Config :=
  match found? line with
  | some (d, .ok (some v)) => .ok (d.set v c)
  | some (_, .error f) => if f.family = .value then .ok c else .error f
  | _ => .ok c

/-- What is converted, and what is read of it: a number with too many digits makes a value that
is not admissible, and there are no other faults. -/
inductive Settles : Option (Except Fault (Option Value)) → Option (Option Value) → Prop where
  | unformed : Settles none none
  | read (v : Option Value) : Settles (some (.ok v)) (some v)
  | tooLong {count : Nat} (h : Fault.maxDigits < count) :
      Settles (some (.error (.tooManyDigits count))) (some none)

variable {cs digits : List Char} {k : Kind} {d : Directive} {line : List Char} {f : Fault}

/-- Digits are read unless they are too many. -/
theorem readPositive_cases (hdigits : areDigits digits = true) :
  readPositive digits = .ok (positive? digits)
    ∨ Fault.maxDigits < digits.length ∧ positive? digits = none
      ∧ readPositive digits = .error (.tooManyDigits digits.length)
  := by
  obtain ⟨hnil, hall⟩ := areDigits_iff.mp hdigits
  rw [readPositive, positive?, Text.readInteger_digits hall hnil]
  split
  · rename_i hlong
    exact .inr ⟨hlong, rfl, rfl⟩
  · exact .inl rfl

/-- The text of a fraction is a number. -/
theorem readNumber_of_isFraction (h : isFraction cs = true) :
  ∃ x, readNumber cs = .ok x ∧ readFraction? cs = some x
  := by
  obtain ⟨n, hn⟩ := isFraction_iff.mp h
  have hread := readFraction?_of_fractionText hn
  refine ⟨_, ?_, hread⟩
  rw [readFraction?, if_pos h] at hread
  rw [readNumber, hread]

theorem Kind.settles (k : Kind) (cs : List Char) :
  Settles (k.convert? cs) (k.read? cs)
  := by
  cases k with
  | name =>
      rw [convert?, read?]
      cases readName? cs with
      | none => exact .unformed
      | some s => exact .read _
  | color =>
      rw [convert?, read?]
      cases readColor? cs with
      | none => exact .unformed
      | some s => exact .read _
  | count =>
      rw [convert?, read?, readCount?]
      split
      · rename_i hdigits
        rcases readPositive_cases hdigits with hread | ⟨hlong, hnone, hfault⟩
        · rw [hread]
          exact .read _
        · rw [hfault, hnone]
          exact .tooLong hlong
      · exact .unformed
  | fraction =>
      rw [convert?, read?]
      split
      · rename_i hform
        obtain ⟨x, hnumber, hread⟩ := readNumber_of_isFraction hform
        rw [hnumber, hread]
        exact .read _
      · rename_i hform
        rw [readFraction?, if_neg hform]
        exact .unformed
  | sides =>
      rw [convert?, read?, readSides?]
      cases cs.dropWhile Text.isDigit with
      | nil => exact .unformed
      | cons x height =>
          dsimp only
          split
          · rename_i hform
            rw [Bool.and_eq_true, Bool.and_eq_true] at hform
            obtain ⟨⟨-, hwidth⟩, hheight⟩ := hform
            rcases readPositive_cases hwidth with hread | ⟨hlong, hnone, hfault⟩
            · rcases readPositive_cases hheight with hread' | ⟨hlong, hnone, hfault⟩
              · rw [hread, hread', Option.map_some, map_sides]
                exact .read _
              · -- Without a height there are no sides, whatever the width is.
                have hneither : ∀ w : Option Int,
                    (do return (← w, ← none) : Option (Int × Int)) = none := by
                  intro w
                  cases w <;> rfl
                rw [hread, hfault, hnone, hneither]
                exact .tooLong hlong
            · rw [hfault, hnone]
              exact .tooLong hlong
          · exact .unformed

theorem settles (d : Directive) (line : List Char) :
  Settles (d.convert? line) (d.scan? line)
  := by
  rw [scan?, convert?]
  cases Text.looseKeyword? d.keyword.toList (Text.trimStart line) with
  | none => exact .unformed
  | some rest =>
      simp only [Option.bind_eq_bind, Option.bind_some]
      cases Text.afterBlanks? rest with
      | none => exact .unformed
      | some rest' => exact d.kind.settles (Text.trimEnd rest')

/-- The same directive of a table is found with the faults and without them. -/
theorem settles_findSome? (table : List Directive) (line : List Char) :
  (table.findSome? (fun d => (d.convert? line).map (d, ·)) = none
      ∧ table.findSome? (fun d => (d.scan? line).map (d, ·)) = none)
    ∨ ∃ d r v, Settles (some r) (some v)
      ∧ table.findSome? (fun d => (d.convert? line).map (d, ·)) = some (d, r)
      ∧ table.findSome? (fun d => (d.scan? line).map (d, ·)) = some (d, v)
  := by
  induction table with
  | nil => exact .inl ⟨rfl, rfl⟩
  | cons d rest ih =>
      have hline := d.settles line
      rw [List.findSome?_cons, List.findSome?_cons]
      generalize d.convert? line = r, d.scan? line = v at hline
      cases hline with
      | unformed => exact ih
      | read v => exact .inr ⟨d, _, v, .read v, rfl, rfl⟩
      | tooLong hlong => exact .inr ⟨d, _, none, .tooLong hlong, rfl, rfl⟩

/-- A line changes a configuration without a fault that is passed on. -/
theorem attempt_eq_ok (line : List Char) (c : Config) :
  attempt line c = .ok (apply line c)
  := by
  rw [attempt, apply, found?]
  rcases settles_findSome? all line with ⟨hnone, hnone'⟩ | ⟨d, r, v, hsettles, hsome, hsome'⟩
  · rw [hnone, hnone']
  · rw [hsome, hsome']
    cases hsettles with
    | read => cases v <;> rfl
    | tooLong hlong => rfl

end Directive

namespace Header

/-! ### Headers with their faults -/

/-- The configuration that the lines up to the first separator lead to, and the number of lines up
to and including it, unless a fault is passed on. -/
def attemptFrom (c : Config) (before : Nat) :
    List (List Char) → Except Fault (Option (Config × Nat))
  | [] => .ok none
  | line :: rest =>
    if isSeparator line then .ok (some (c, before + 1))
    else do attemptFrom (← Directive.attempt line c) (before + 1) rest

/-- The configuration of a text and the index of the first line of its body, unless a fault is
passed on. -/
def attempt (text : String) : Except Fault (Config × Nat) := do
  return (← attemptFrom {} 0 (Text.splitLines text.toList)).getD ({}, 0)

theorem attemptFrom_eq_ok (c : Config) (before : Nat) (ls : List (List Char)) :
  attemptFrom c before ls = .ok (splitFrom c before ls)
  := by
  induction ls generalizing c before with
  | nil => rfl
  | cons line rest ih =>
      rw [attemptFrom, splitFrom]
      split
      · rfl
      · rw [Directive.attempt_eq_ok]
        exact ih _ _

theorem attempt_eq_ok (text : String) :
  attempt text = .ok (split text)
  := by
  rw [attempt, attemptFrom_eq_ok]
  rfl

end Header

/-! ### Bounds -/

/-- A configuration within bounds. -/
structure Config.Bounded (c : Config) : Prop where
  names : ∀ s ∈ [c.projectName, c.font], IsName s
  counts : ∀ n ∈ [c.width, c.height, c.frameRate, c.fontSize, c.titleFontSize,
    c.subtitleFontSize], IsCount n
  colors : ∀ s ∈ [c.titleColor, c.subtitleColor, c.freeTextColor], IsColor s
  fractions : ∀ x ∈ [c.backgroundAlpha, c.titleX, c.titleY, c.subtitleY],
    x.isFinite = true ∧ 0 ≤ x.value ∧ x.value ≤ 1

/-- A double from 0 to 1 is a number from 0 to 1. -/
theorem Double.value_unit {x : Double} (hzero : Double.zero ≤ x) (hone : x ≤ Double.ofInt 1) :
  x.isFinite = true ∧ 0 ≤ x.value ∧ x.value ≤ 1
  := by
  obtain ⟨p, hp, hfinite, hlow, hhigh⟩ := exists_place_unit hzero hone
  have hunits := unitsPerOne_pos'
  rw [value_of_place hfinite hp]
  refine ⟨hfinite, div_nonneg (Int.cast_nonneg hlow) hunits.le, ?_⟩
  rw [div_le_one hunits]
  exact_mod_cast hhigh

theorem Config.WellFormed.bounded {c : Config} (h : c.WellFormed) :
  c.Bounded
  := by
  constructor <;> simp only [List.forall_mem_cons, List.not_mem_nil, false_implies, implies_true,
    and_true]
  case names => exact ⟨h .project, h .font⟩
  case counts =>
      exact ⟨(h .resolution).1, (h .resolution).2, h .frameRate, h .fontSize, h .titleFontSize,
        h .subtitleFontSize⟩
  case colors => exact ⟨h .titleColor, h .subtitleColor, h .freeTextColor⟩
  case fractions =>
      exact ⟨Double.value_unit (h .backgroundAlpha).1 (h .backgroundAlpha).2,
        Double.value_unit (h .titleX).1 (h .titleX).2,
        Double.value_unit (h .titleY).1 (h .titleY).2,
        Double.value_unit (h .subtitleY).1 (h .subtitleY).2⟩

/-- Every header is read without a fault, whatever its lines are, and what it sets is within
bounds. -/
theorem Header.split_bounded (text : String) :
  (split text).1.Bounded ∧ attempt text = .ok (split text)
  := ⟨(wellFormed_split text).bounded, attempt_eq_ok text⟩

/-- A long decimal below 1 is rounded to 1, and a number of zero changes nothing. -/
example :
  (Header.split "default_background_alpha .99999999999999999999\nframeRate 0\n===").1
    = { backgroundAlpha := .ofInt 1 }
  := by decide +kernel

end Montage
