import Montage.Proofs.Command.Canonical
import Montage.Proofs.Text.Keyword
import Montage.Proofs.Timecode.Reading

/-!
# Milliseconds that are kept

What is read as a timecode are four fields of digits, in any script, with their marks between
them; together they denote a whole number of milliseconds.  Neither the reading nor the writing
of times loses or gains one: `parse_keeps_millis`.
-/

namespace Montage

namespace Text

/-- Digits of any script, of a given count, and the number that they denote. -/
structure IsField (count : Nat) (cs : List Char) (n : Nat) : Prop where
  length : cs.length = count
  digits : ∀ c ∈ cs, isDigit c = true
  value : digitsValue cs = n

theorem scanDigits?_eq_some_iff {count n : Nat} {cs rest : List Char} :
  scanDigits? count cs = some (n, rest) ↔ ∃ front, IsField count front n ∧ cs = front ++ rest
  := by
  constructor
  · intro h
    rw [scanDigits?] at h
    split at h
    · rename_i hfront
      rw [Bool.and_eq_true, decide_eq_true_eq, List.all_eq_true] at hfront
      cases h
      exact ⟨cs.take count, ⟨hfront.1, hfront.2, rfl⟩, (List.take_append_drop count cs).symm⟩
    · cases h
  · rintro ⟨front, ⟨rfl, hdigits, rfl⟩, rfl⟩
    have hall : front.all isDigit = true := List.all_eq_true.mpr hdigits
    rw [scanDigits?, List.take_left, List.drop_left, hall]
    simp

end Text

namespace Timecode

/-- The characters that a timecode is written with: its fields with their marks between them. -/
def Spells (cs : List Char) (t : Timecode) : Prop :=
  ∃ hours minutes seconds millis, Text.IsField 2 hours t.hours ∧ Text.IsField 2 minutes t.minutes
    ∧ Text.IsField 2 seconds t.seconds ∧ Text.IsField 3 millis t.millis
    ∧ cs = hours ++ ':' :: (minutes ++ ':' :: (seconds ++ '.' :: millis))

/-- The milliseconds that the fields of a timecode denote. -/
def total (t : Timecode) : Nat :=
  t.hours * 3600000 + t.minutes * 60000 + t.seconds * 1000 + t.millis

/-- The text of a number of milliseconds with minutes and seconds below 60, and zeros in front
where the hours have less than two digits. -/
def IsNormal (cs : List Char) (n : Nat) : Prop :=
  ∃ t : Timecode, t.minutes < 60 ∧ t.seconds < 60 ∧ t.millis < 1000 ∧ t.total = n
    ∧ cs = (Double.padded 2 t.hours).toList ++ ':' :: ((Double.padded 2 t.minutes).toList
      ++ ':' :: ((Double.padded 2 t.seconds).toList ++ '.' :: (Double.padded 3 t.millis).toList))

variable {t t' : Timecode} {cs rest : List Char}

theorem total_eq (t : Timecode) :
  t.total = 1000 * t.wholeSeconds + t.millis
  := by
  rw [total, wholeSeconds]
  omega

/-! ### Reading -/

/-- What is scanned as a timecode is spelled as it. -/
theorem scan?_eq_some_iff :
  scan? cs = some (t, rest) ↔ ∃ front, Spells front t ∧ cs = front ++ rest
  := by
  simp only [scan?, Option.bind_eq_bind, Option.bind_eq_some_iff, Option.pure_def,
    Option.some.injEq, Prod.mk.injEq, Prod.exists, Text.scanDigits?_eq_some_iff,
    Text.keyword?_eq_some_iff, List.singleton_append]
  constructor
  · rintro ⟨h, _, ⟨hh, hhours, rfl⟩, _, rfl, m, _, ⟨mm, hminutes, rfl⟩, _, rfl, s, _,
      ⟨ss, hseconds, rfl⟩, _, rfl, ms, _, ⟨fff, hmillis, rfl⟩, rfl, rfl⟩
    exact ⟨_, ⟨hh, mm, ss, fff, hhours, hminutes, hseconds, hmillis, rfl⟩, by simp⟩
  · rintro ⟨_, ⟨hh, mm, ss, fff, hhours, hminutes, hseconds, hmillis, rfl⟩, rfl⟩
    simp only [List.append_assoc, List.cons_append]
    exact ⟨_, _, ⟨hh, hhours, rfl⟩, _, rfl, _, _, ⟨mm, hminutes, rfl⟩, _, rfl, _, _,
      ⟨ss, hseconds, rfl⟩, _, rfl, _, _, ⟨fff, hmillis, rfl⟩, rfl, rfl⟩

theorem parse_eq_ok_iff {text : String} {time : Double} :
  parse text = .ok time ↔ ∃ t, Spells (Text.trim text.toList) t ∧ t.time = time
  := by
  have hscan : ∀ t, Spells (Text.trim text.toList) t
      ↔ scan? (Text.trim text.toList) = some (t, []) := by
    intro t
    rw [scan?_eq_some_iff]
    simp
  simp only [hscan]
  rw [parse]
  split
  · rename_i t ht
    simp [ht]
  · rename_i hnone
    refine ⟨nofun, ?_⟩
    rintro ⟨t, ht, -⟩
    exact absurd ht (hnone t)

theorem Spells.proper (h : Spells cs t) :
  t.Proper
  := proper_of_scan? (scan?_eq_some_iff.mpr ⟨cs, h, (List.append_nil cs).symm⟩)

/-! ### Writing -/

theorem stamp_of_spells (h : Spells cs t) :
  stamp t.time = .ok (ofMillis t.total)
  := by
  rw [stamp_time h.proper, total_eq]

theorem isNormal_ofMillis (n : Nat) :
  IsNormal (ofMillis n).toList n
  := by
  refine ⟨ofTotal n, ?_, ?_, ?_, ?_, toList_ofMillis n⟩
  all_goals simp only [ofTotal, total]
  all_goals omega

/-- A stamp has no blanks to be removed. -/
theorem trim_ofMillis (n : Nat) :
  Text.trim (ofMillis n).toList = (ofMillis n).toList
  := by
  have hstart := trimStart_ofMillis n []
  rw [List.append_nil] at hstart
  rw [Text.trim, hstart]
  apply Text.trimEnd_eq
  intro c hc
  rcases mem_ofMillis (List.mem_of_getLast? hc) with hdigit | rfl | rfl
  · apply Text.isBlank_of_isDigit hdigit
  · rfl
  · rfl

/-- A time below a hundred hours is read back from its stamp. -/
theorem parse_ofMillis (h : Spells cs t) (hlt : t.total < 360000000) :
  parse (ofMillis t.total) = .ok t.time
  := by
  have hscan := scan?_ofMillis hlt []
  rw [List.append_nil] at hscan
  rw [parse, trim_ofMillis, hscan, total_eq]
  dsimp only
  rw [time_ofTotal h.proper.millis]

/-- The time of a timecode tells its milliseconds. -/
theorem time_eq_iff_total (ht : t.Proper) (ht' : t'.Proper) :
  t.time = t'.time ↔ t.total = t'.total
  := by
  constructor
  · intro heq
    have hstamps := stamp_time ht
    rw [heq, stamp_time ht'] at hstamps
    have hmillis := ofMillis_injective (congrArg String.toList (Except.ok.inj hstamps))
    rw [total_eq, total_eq, hmillis]
  · intro heq
    rw [total_eq, total_eq] at heq
    apply time_eq_of_ofMillis ht ht'
    rw [heq]

/-- Times of timecodes that are equal as numbers are the same. -/
theorem eq_of_equals (ht : t.Proper) (ht' : t'.Proper) (h : t.time.equals t'.time = true) :
  t.time = t'.time
  := by
  obtain ⟨b, c, hc, htime, -⟩ := ht.time_approximates
  obtain ⟨b', c', hc', htime', -⟩ := ht'.time_approximates
  rw [htime, htime'] at h ⊢
  obtain ⟨x, hx, hx'⟩ := Double.equals_iff.mp h
  obtain rfl : c = c' := Int.ofNat.inj (Option.some.inj (hx.trans hx'.symm))
  rfl

/-- What is read as a timecode is written with the same milliseconds, and what is read from
two texts are equal times exactly if the milliseconds are the same.  Below a hundred hours what
was written is read as the time itself. -/
theorem parse_keeps_millis {text : String} {time : Double} (h : parse text = .ok time) :
  ∃ t, Spells (Text.trim text.toList) t
    ∧ (∃ s, stamp time = .ok s ∧ IsNormal s.toList t.total
      ∧ (t.total < 360000000 → parse s = .ok time))
    ∧ ∀ text' time' t', parse text' = .ok time' → Spells (Text.trim text'.toList) t' →
      (time.equals time' = true ↔ t.total = t'.total) ∧ (t.total = t'.total → time = time')
  := by
  obtain ⟨t, hspells, rfl⟩ := parse_eq_ok_iff.mp h
  refine ⟨t, hspells, ⟨_, stamp_of_spells hspells, isNormal_ofMillis _, parse_ofMillis hspells⟩, ?_⟩
  intro text' time' t' htime' hspells'
  have hparse : parse text' = .ok t'.time := parse_eq_ok_iff.mpr ⟨t', hspells', rfl⟩
  obtain rfl := Except.ok.inj (hparse.symm.trans htime')
  have hsame := time_eq_iff_total hspells.proper hspells'.proper
  refine ⟨⟨fun hequals => hsame.mp (eq_of_equals hspells.proper hspells'.proper hequals), ?_⟩,
    hsame.mpr⟩
  intro htotal
  rw [← hsame.mpr htotal]
  obtain ⟨b, c, hc, hvalue, -⟩ := hspells.proper.time_approximates
  rw [hvalue]
  apply Double.equals_iff.mpr ⟨c, rfl, rfl⟩

/-- Digits of another script, with minutes and seconds beyond 59. -/
theorem parse_keeps_millis_carried :
  parse "\t०१:७५:९९.००५\n" = .ok (time ⟨1, 75, 99, 5⟩)
    ∧ ∃ s, stamp (time ⟨1, 75, 99, 5⟩) = .ok s ∧ IsNormal s.toList 8199005
      ∧ parse s = .ok (time ⟨1, 75, 99, 5⟩)
  := by
  have hparse : parse "\t०१:७५:९९.००५\n" = .ok (time ⟨1, 75, 99, 5⟩) := by decide +kernel
  have hscan : scan? (Text.trim "\t०१:७५:९९.००५\n".toList) = some (⟨1, 75, 99, 5⟩, []) := by
    decide +kernel
  obtain ⟨t, hspells, ⟨s, hs, hnormal, hread⟩, -⟩ := parse_keeps_millis hparse
  obtain ⟨rfl, -⟩ := Prod.mk.inj (Option.some.inj
    (hscan.symm.trans (scan?_eq_some_iff.mpr ⟨_, hspells, (List.append_nil _).symm⟩)))
  exact ⟨hparse, s, hs, hnormal, hread (by decide)⟩

end Timecode

end Montage
