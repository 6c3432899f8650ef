import Montage.Proofs.Text.Blank
import Montage.Proofs.Timecode.Lossless

/-!
# The grammar of commands

Without the blanks around it, a line that asks for an edit consists of a keyword and its
operands, with gaps between them: `Edit.Spells`.  It is tried against one pattern for each
keyword, and a line matches at most one of them.  The lines of cuts and ranges are exactly
those of the grammar, and the digits of their timecodes always make numbers: `timed_grammar`.
-/

namespace Montage

/-! ### Fields of digits -/

namespace Text.IsField

variable {count n : Nat} {cs : List Char}

theorem lt (h : IsField count cs n) :
  n < 10 ^ count
  := by
  rw [← h.value, ← h.length]
  exact digitsValue_lt cs

theorem ne_nil (h : IsField count cs n) (hcount : 0 < count) :
  cs ≠ []
  := by
  rw [← List.length_pos_iff, h.length]
  exact hcount

theorem readInteger (h : IsField count cs n) (hcount : 0 < count) (hmax : count ≤ Fault.maxDigits) :
  Text.readInteger (String.ofList cs) = .ok n
  := by
  rw [readInteger_digits h.digits (h.ne_nil hcount), h.length, if_neg (Nat.not_lt.mpr hmax),
    h.value]

end Text.IsField

namespace Timecode

variable {cs front : List Char} {t : Timecode}

theorem Spells.isBlank (h : Spells cs t) :
  ∀ c ∈ cs, Text.isBlank c = false
  := by
  obtain ⟨hours, minutes, seconds, millis, hhours, hminutes, hseconds, hmillis, rfl⟩ := h
  intro c hc
  simp only [List.mem_append, List.mem_cons] at hc
  rcases hc with hc | rfl | hc | rfl | hc | rfl | hc
  · exact Text.isBlank_of_digit (hhours.digits c hc)
  · rfl
  · exact Text.isBlank_of_digit (hminutes.digits c hc)
  · rfl
  · exact Text.isBlank_of_digit (hseconds.digits c hc)
  · rfl
  · exact Text.isBlank_of_digit (hmillis.digits c hc)

theorem Spells.ne_nil (h : Spells cs t) :
  cs ≠ []
  := by
  obtain ⟨hours, minutes, seconds, millis, -, -, -, -, rfl⟩ := h
  simp

theorem Spells.trimStart (h : Spells cs t) (rest : List Char) :
  Text.trimStart (cs ++ rest) = cs ++ rest
  := by
  apply Text.trimStart_eq
  intro c hc
  rw [List.head?_append, List.head?_eq_some_head h.ne_nil, Option.some_or, Option.some.injEq] at hc
  exact h.isBlank c (hc ▸ List.head_mem h.ne_nil)

/-- What ends with a timecode ends visibly. -/
theorem Spells.getLast? (h : Spells cs t) :
  ∀ c, (front ++ cs).getLast? = some c → Text.isBlank c = false
  := by
  intro c hc
  rw [List.getLast?_append_of_ne_nil _ h.ne_nil] at hc
  exact h.isBlank c (List.mem_of_getLast? hc)

/-- The time of a timecode is the sum of two finite doubles. -/
theorem Proper.isFinite (h : t.Proper) :
  (Double.ofInt t.wholeSeconds).isFinite = true ∧ (Double.quotient t.millis 1000).isFinite = true
  := by
  obtain ⟨b, c, hc, htime, -⟩ := h.time_approximates
  obtain ⟨hS, hwhole⟩ : ∃ hS, Double.ofInt t.wholeSeconds
      = .fin false (t.wholeSeconds * Double.unitsPerOne) hS := by
    apply Double.ofInt_natCast
    have hlt := h.wholeSeconds_lt
    have hpow : 362440 ≤ Double.twoPow 53 := by decide
    omega
  rw [time_eq, hwhole] at htime
  rw [hwhole]
  refine ⟨rfl, ?_⟩
  cases hquotient : Double.quotient t.millis 1000 with
  | fin => rfl
  | nan =>
      rw [hquotient] at htime
      cases htime
  | inf neg =>
      rw [hquotient] at htime
      cases htime

/-- Fields that are integers make a time unless it is too large. -/
theorem ofFields_eq {hours minutes seconds millis : String} {h m s ms : Int}
    (hhours : Text.readInteger hours = .ok h) (hminutes : Text.readInteger minutes = .ok m)
    (hseconds : Text.readInteger seconds = .ok s) (hmillis : Text.readInteger millis = .ok ms)
    (hwhole : (Double.ofInt (h * 3600 + m * 60 + s)).isFinite = true)
    (hquotient : (Double.quotient ms 1000).isFinite = true) :
  ofFields hours minutes seconds millis = .ok (secondsOf h m s ms)
  := by
  simp only [ofFields, hhours, hminutes, hseconds, hmillis, Except.bind, bind, hwhole, hquotient,
    Bool.not_true, Bool.false_eq_true, if_false]

/-- Fields of digits, in any script, always make a time. -/
theorem ofFields_of_isField {hours minutes seconds millis : List Char}
    (hhours : Text.IsField 2 hours t.hours) (hminutes : Text.IsField 2 minutes t.minutes)
    (hseconds : Text.IsField 2 seconds t.seconds) (hmillis : Text.IsField 3 millis t.millis) :
  ofFields (String.ofList hours) (String.ofList minutes) (String.ofList seconds)
      (String.ofList millis) = .ok t.time
  := by
  have hproper : t.Proper := ⟨hhours.lt, hminutes.lt, hseconds.lt, hmillis.lt⟩
  have hsum : (t.hours * 3600 + t.minutes * 60 + t.seconds : Int) = t.wholeSeconds := by
    rw [wholeSeconds]
    omega
  obtain ⟨hwhole, hquotient⟩ := hproper.isFinite
  rw [← hsum] at hwhole
  have hmax : 3 ≤ Fault.maxDigits := by decide
  exact ofFields_eq (hhours.readInteger (by decide) (by omega))
    (hminutes.readInteger (by decide) (by omega)) (hseconds.readInteger (by decide) (by omega))
    (hmillis.readInteger (by decide) hmax) hwhole hquotient

end Timecode

theorem RangeVerb.keyword_injective {verb verb' : RangeVerb}
    (h : verb.keyword.toList = verb'.keyword.toList) :
  verb = verb'
  := by
  cases verb <;> cases verb' <;> cases h <;> rfl

namespace Edit

/-! ### Lines -/

/-- A path as it is written, with or without a pair of double quotes around it. -/
inductive Unquotes : List Char → List Char → Prop
  | quoted (path : List Char) : Unquotes ('"' :: (path ++ ['"'])) path
  | bare {path : List Char} (h : ∀ inner, path ≠ '"' :: (inner ++ ['"'])) : Unquotes path path

/-- The lines of the grammar, without the blanks around them, and what they ask for. -/
inductive Spells : List Char → Edit → Prop
  | load {key gap rest path : List Char} (hkey : key.map Char.toUpper = "LOAD".toList)
      (hgap : Text.IsGap gap) (hrest : ∃ c ∈ rest, Text.isBlank c = false)
      (hpath : Unquotes (Text.trim rest) path) :
      Spells (key ++ (gap ++ rest)) (load (String.ofList path))
  | cut {gap stamp : List Char} {t : Timecode} (hgap : Text.IsGap gap)
      (ht : Timecode.Spells stamp t) :
      Spells ("CUT".toList ++ (gap ++ stamp)) (cut t.time)
  | range (verb : RangeVerb) {gap stamp gap' stamp' : List Char} {t t' : Timecode}
      (hgap : Text.IsGap gap) (ht : Timecode.Spells stamp t) (hgap' : Text.IsGap gap')
      (ht' : Timecode.Spells stamp' t') :
      Spells (verb.keyword.toList ++ (gap ++ (stamp ++ (gap' ++ stamp'))))
        (range verb t.time t'.time)

variable {cs rest : List Char} {time : Double} {e : Edit}

theorem timeAfter?_eq_some_iff :
  timeAfter? cs = some (time, rest)
    ↔ ∃ gap stamp t, Text.IsGap gap ∧ Timecode.Spells stamp t ∧ t.time = time
      ∧ cs = gap ++ (stamp ++ rest)
  := by
  simp only [timeAfter?, Option.bind_eq_bind, Option.bind_eq_some_iff, Option.pure_def,
    Option.some.injEq, Prod.mk.injEq, Prod.exists, Timecode.scan?_eq_some_iff]
  constructor
  · rintro ⟨after, hafter, t, _, ⟨stamp, ht, rfl⟩, rfl, rfl⟩
    obtain ⟨gap, hgap, hcs⟩ := Text.exists_isGap hafter
    exact ⟨gap, stamp, t, hgap, ht, rfl, hcs⟩
  · rintro ⟨gap, stamp, t, hgap, ht, rfl, rfl⟩
    refine ⟨stamp ++ rest, ?_, t, rest, ⟨stamp, ht, rfl⟩, rfl, rfl⟩
    rw [hgap.afterBlanks?, ht.trimStart]

theorem exists_isGap_of_pathAfter? {path : List Char} (h : pathAfter? cs = some path) :
  ∃ gap rest, Text.IsGap gap ∧ cs = gap ++ rest
  := by
  rw [pathAfter?] at h
  split at h
  · cases h
  all_goals
    rename_i hafter
    obtain ⟨gap, hgap, hcs⟩ := Text.exists_isGap hafter
    exact ⟨gap, _, hgap, hcs⟩

/-- What the operands of a line leave without the blanks that end it. -/
theorem trim_eq_iff_trimStart {front stamp : List Char} {t : Timecode}
    (ht : Timecode.Spells stamp t) :
  Text.trim cs = front ++ stamp
    ↔ ∃ back : List Char, back.all Text.isBlank = true
      ∧ Text.trimStart cs = front ++ (stamp ++ back)
  := by
  simp only [Text.trim_eq_iff ht.getLast?, List.all_eq_true, List.append_assoc]

/-- A line is read as a cut exactly if it is one of the grammar. -/
theorem cut?_eq_some_iff :
  cut? cs = some e ↔ (∃ time, e = cut time) ∧ Spells (Text.trim cs) e
  := by
  simp only [cut?, Option.bind_eq_bind, Option.bind_eq_some_iff, Option.pure_def,
    Option.some.injEq, Prod.exists, Text.keyword?_eq_some_iff, timeAfter?_eq_some_iff,
    Option.guard_eq_some']
  constructor
  · rintro ⟨_, hcs, _, back, ⟨gap, stamp, t, hgap, ht, rfl, rfl⟩, -, hback, rfl⟩
    have htrim : Text.trim cs = ("CUT".toList ++ gap) ++ stamp := by
      rw [trim_eq_iff_trimStart ht]
      exact ⟨back, hback, by rw [hcs, List.append_assoc]⟩
    rw [htrim, List.append_assoc]
    exact ⟨⟨t.time, rfl⟩, .cut hgap ht⟩
  · rintro ⟨⟨time, he⟩, hspells⟩
    generalize htrim : Text.trim cs = line at hspells
    cases hspells with
    | load => cases he
    | range => cases he
    | @cut gap stamp t hgap ht =>
        rw [← List.append_assoc, trim_eq_iff_trimStart ht] at htrim
        obtain ⟨back, hback, hcs⟩ := htrim
        rw [List.append_assoc] at hcs
        exact ⟨_, hcs, _, back, ⟨gap, stamp, t, hgap, ht, rfl, rfl⟩, (), hback, rfl⟩

/-- A line is read as a range of a verb exactly if it is one of the grammar. -/
theorem range?_eq_some_iff {verb : RangeVerb} :
  range? verb cs = some e ↔ (∃ start stop, e = range verb start stop) ∧ Spells (Text.trim cs) e
  := by
  simp only [range?, Option.bind_eq_bind, Option.bind_eq_some_iff, Option.pure_def,
    Option.some.injEq, Prod.exists, Text.keyword?_eq_some_iff, timeAfter?_eq_some_iff,
    Option.guard_eq_some']
  constructor
  · rintro ⟨_, hcs, _, _, ⟨gap, stamp, t, hgap, ht, rfl, rfl⟩, _, back,
      ⟨gap', stamp', t', hgap', ht', rfl, rfl⟩, -, hback, rfl⟩
    have htrim : Text.trim cs
        = (verb.keyword.toList ++ (gap ++ (stamp ++ gap'))) ++ stamp' := by
      rw [trim_eq_iff_trimStart ht']
      exact ⟨back, hback, by simp only [hcs, List.append_assoc]⟩
    simp only [List.append_assoc] at htrim
    rw [htrim]
    exact ⟨⟨t.time, t'.time, rfl⟩, .range verb hgap ht hgap' ht'⟩
  · rintro ⟨⟨start, stop, he⟩, hspells⟩
    generalize htrim : Text.trim cs = line at hspells
    cases hspells with
    | load => cases he
    | cut => cases he
    | @range verb' gap stamp gap' stamp' t t' hgap ht hgap' ht' =>
        obtain rfl : verb = verb' := (range.inj he).1.symm
        have hcs : Text.trim cs = (verb.keyword.toList ++ (gap ++ (stamp ++ gap'))) ++ stamp' := by
          simp only [htrim, List.append_assoc]
        rw [trim_eq_iff_trimStart ht'] at hcs
        obtain ⟨back, hback, hcs⟩ := hcs
        simp only [List.append_assoc] at hcs
        exact ⟨_, hcs, _, _, ⟨gap, stamp, t, hgap, ht, rfl, rfl⟩, _, back,
          ⟨gap', stamp', t', hgap', ht', rfl, rfl⟩, (), hback, rfl⟩

/-! ### Patterns -/

/-- The patterns that a line is tried against, one for each keyword. -/
inductive Pattern
  | load
  | cut
  | range (verb : RangeVerb)

namespace Pattern

/-- The keyword that a line of a pattern starts with. -/
def keyword : Pattern → List Char
  | load => "LOAD".toList
  | cut => "CUT".toList
  | range verb => verb.keyword.toList

/-- The edit that is read off a line of a pattern. -/
def read? : Pattern → List Char → Option Edit
  | load => load?
  | cut => cut?
  | range verb => range? verb

/-- The pattern of the lines that ask for an edit. -/
def ofEdit : Edit → Pattern
  | .load _ => load
  | .cut _ => cut
  | .range verb _ _ => range verb

theorem keyword_isCapital (p : Pattern) :
  ∀ c ∈ p.keyword, Text.IsCapital c
  := by
  rcases p with _ | _ | verb
  · simp [keyword, Text.IsCapital]
  · simp [keyword, Text.IsCapital]
  · cases verb <;> simp [keyword, RangeVerb.keyword, Text.IsCapital]

theorem keyword_injective {p p' : Pattern} (h : p.keyword = p'.keyword) :
  p = p'
  := by
  rcases p with _ | _ | verb <;> rcases p' with _ | _ | verb'
  case load.load | cut.cut => rfl
  case range.range => rw [RangeVerb.keyword_injective h]
  case load.cut | cut.load => cases h
  case load.range | cut.range => cases verb' <;> cases h
  case range.load | range.cut => cases verb <;> cases h

/-- What a line of a pattern starts with: its keyword, in some case, and a blank. -/
theorem spells_of_read? {p : Pattern} (h : p.read? cs = some e) :
  ∃ key after, Text.Spells p.keyword key ∧ after.head?.any Text.isBlank = true
    ∧ Text.trimStart cs = key ++ after
  := by
  rcases p with _ | _ | verb
  · simp only [read?, load?, Option.bind_eq_bind, Option.bind_eq_some_iff,
      Text.looseKeyword?_eq_some_iff] at h
    obtain ⟨after, ⟨key, hkey, hcs⟩, path, hpath, -⟩ := h
    obtain ⟨gap, rest, hgap, rfl⟩ := exists_isGap_of_pathAfter? hpath
    exact ⟨key, _, hkey, hgap.head?_any rest, hcs⟩
  · simp only [read?, cut?, Option.bind_eq_bind, Option.bind_eq_some_iff,
      Text.keyword?_eq_some_iff, Prod.exists, timeAfter?_eq_some_iff] at h
    obtain ⟨after, hcs, _, _, ⟨gap, stamp, t, hgap, -, -, rfl⟩, -⟩ := h
    exact ⟨_, _, Text.spells_self (keyword_isCapital cut), hgap.head?_any _, hcs⟩
  · simp only [read?, range?, Option.bind_eq_bind, Option.bind_eq_some_iff,
      Text.keyword?_eq_some_iff, Prod.exists, timeAfter?_eq_some_iff] at h
    obtain ⟨after, hcs, _, _, ⟨gap, stamp, t, hgap, -, -, rfl⟩, -⟩ := h
    exact ⟨_, _, Text.spells_self (keyword_isCapital (range verb)), hgap.head?_any _, hcs⟩

theorem eq_ofEdit {p : Pattern} (h : p.read? cs = some e) :
  p = ofEdit e
  := by
  rcases p with _ | _ | verb
  · simp only [read?, load?, Option.bind_eq_bind, Option.bind_eq_some_iff, Option.pure_def,
      Option.some.injEq] at h
    obtain ⟨after, -, path, -, rfl⟩ := h
    rfl
  · obtain ⟨⟨time, rfl⟩, -⟩ := cut?_eq_some_iff.mp h
    rfl
  · obtain ⟨⟨start, stop, rfl⟩, -⟩ := range?_eq_some_iff.mp h
    rfl

/-- No line matches two patterns. -/
theorem eq_of_read? {p p' : Pattern} {e' : Edit} (h : p.read? cs = some e)
    (h' : p'.read? cs = some e') :
  p = p'
  := by
  obtain ⟨key, after, hkey, hblank, hcs⟩ := spells_of_read? h
  obtain ⟨key', after', hkey', hblank', hcs'⟩ := spells_of_read? h'
  exact keyword_injective (hkey.unique p.keyword_isCapital p'.keyword_isCapital hkey' hblank hblank'
    (hcs.symm.trans hcs'))

end Pattern

/-- A line asks for what the pattern of the edit reads off it. -/
theorem ofLine?_eq_some_iff {line : String} :
  ofLine? line = some e ↔ (Pattern.ofEdit e).read? line.toList = some e
  := by
  constructor
  · intro h
    obtain ⟨p, hp⟩ : ∃ p : Pattern, p.read? line.toList = some e := by
      simp only [ofLine?, Option.orElse_eq_orElse, Option.orElse_eq_or,
        Option.or_eq_some_iff] at h
      rcases h with h | ⟨-, h | ⟨-, h | ⟨-, h | ⟨-, h⟩⟩⟩⟩
      · exact ⟨.load, h⟩
      · exact ⟨.cut, h⟩
      · exact ⟨.range .hide, h⟩
      · exact ⟨.range .reveal, h⟩
      · exact ⟨.range .delete, h⟩
    rwa [← Pattern.eq_ofEdit hp]
  · intro h
    generalize Pattern.ofEdit e = p at h
    -- The other patterns read nothing, or the line would match two.
    have hother : ∀ p' : Pattern, p' ≠ p → p'.read? line.toList = none := by
      intro p' hne
      rw [Option.eq_none_iff_forall_ne_some]
      exact fun e' he' => hne (Pattern.eq_of_read? he' h)
    have hload := hother .load
    have hcut := hother .cut
    have hhide := hother (.range .hide)
    have hreveal := hother (.range .reveal)
    simp only [Pattern.read?] at hload hcut hhide hreveal
    rcases p with _ | _ | _ | _ | _ <;> simp_all [ofLine?, Pattern.read?]

end Edit

namespace Command

variable {line : String} {number : Int} {c : Command}

theorem ofLine?_eq_some_iff :
  ofLine? line number = some c ↔ c.line = number ∧ Edit.ofLine? line = some c.edit
  := by
  obtain ⟨e, n⟩ := c
  rw [ofLine?, Option.map_eq_some_iff]
  constructor
  · rintro ⟨e', he, heq⟩
    cases heq
    exact ⟨rfl, he⟩
  · rintro ⟨rfl, he⟩
    exact ⟨e, he, rfl⟩

/-- A line is read as a cut or a range exactly if it is one of the grammar, whatever blanks it
has and in whatever script its digits are, and the command keeps the number of its line.  What
a line asks for is what a single pattern reads off it.  Each time is that of the digits of its
fields, which always make numbers. -/
theorem timed_grammar (line : String) (number : Int) :
  (∀ time n, ofLine? line number = some ⟨.cut time, n⟩
      ↔ n = number ∧ Edit.Spells (Text.trim line.toList) (.cut time))
    ∧ (∀ verb start stop n, ofLine? line number = some ⟨.range verb start stop, n⟩
      ↔ n = number ∧ Edit.Spells (Text.trim line.toList) (.range verb start stop))
    ∧ (∀ e, Edit.ofLine? line = some e ↔ ∃ p : Edit.Pattern, p.read? line.toList = some e)
    ∧ (∀ (p p' : Edit.Pattern) e e', p.read? line.toList = some e →
      p'.read? line.toList = some e' → p = p')
    ∧ ∀ (t : Timecode) hours minutes seconds millis, Text.IsField 2 hours t.hours →
      Text.IsField 2 minutes t.minutes → Text.IsField 2 seconds t.seconds →
      Text.IsField 3 millis t.millis →
      Timecode.ofFields (String.ofList hours) (String.ofList minutes) (String.ofList seconds)
          (String.ofList millis) = .ok t.time
        ∧ t.time = Double.ofInt (t.hours * 3600 + t.minutes * 60 + t.seconds)
          + Double.quotient t.millis 1000
  := by
  refine ⟨?_, ?_, ?_, fun p p' e e' => Edit.Pattern.eq_of_read?, ?_⟩
  · intro time n
    rw [ofLine?_eq_some_iff, Edit.ofLine?_eq_some_iff, Edit.Pattern.ofEdit, Edit.Pattern.read?,
      Edit.cut?_eq_some_iff]
    exact and_congr_right fun _ => and_iff_right ⟨time, rfl⟩
  · intro verb start stop n
    rw [ofLine?_eq_some_iff, Edit.ofLine?_eq_some_iff, Edit.Pattern.ofEdit, Edit.Pattern.read?,
      Edit.range?_eq_some_iff]
    exact and_congr_right fun _ => and_iff_right ⟨start, stop, rfl⟩
  · intro e
    rw [Edit.ofLine?_eq_some_iff]
    refine ⟨fun h => ⟨_, h⟩, ?_⟩
    rintro ⟨p, hp⟩
    rwa [← Edit.Pattern.eq_ofEdit hp]
  · intro t hours minutes seconds millis hhours hminutes hseconds hmillis
    exact ⟨Timecode.ofFields_of_isField hhours hminutes hseconds hmillis, rfl⟩

/-- Digits of another script, with minutes beyond 59, between blanks of other kinds. -/
theorem timed_grammar_respelled :
  ofLine? "\tHIDE\u00a000:00:01.000 \u3000०१:७५:९९.००५\r" 7
      = some ⟨.range .hide (.ofInt 1) (Timecode.time ⟨1, 75, 99, 5⟩), 7⟩
    ∧ Edit.Spells (Text.trim "\tHIDE\u00a000:00:01.000 \u3000०१:७५:९९.००५\r".toList)
      (.range .hide (.ofInt 1) (Timecode.time ⟨1, 75, 99, 5⟩))
    ∧ (∀ (p : Edit.Pattern) e,
      p.read? "\tHIDE\u00a000:00:01.000 \u3000०१:७५:९९.००५\r".toList = some e → p = .range .hide)
    ∧ Timecode.ofFields "०१" "७५" "९९" "००५" = .ok (Timecode.time ⟨1, 75, 99, 5⟩)
  := by
  have hline : ofLine? "\tHIDE\u00a000:00:01.000 \u3000०१:७५:९९.००५\r" 7
      = some ⟨.range .hide (.ofInt 1) (Timecode.time ⟨1, 75, 99, 5⟩), 7⟩ := by
    decide +kernel
  obtain ⟨-, hrange, hread, hone, hfields⟩ :=
    timed_grammar "\tHIDE\u00a000:00:01.000 \u3000०१:७५:९९.००५\r" 7
  refine ⟨hline, ((hrange _ _ _ _).mp hline).2, ?_, ?_⟩
  · intro p e hp
    have hhide : (Edit.Pattern.range .hide).read?
        "\tHIDE\u00a000:00:01.000 \u3000०१:७५:९९.००५\r".toList
          = some (.range .hide (.ofInt 1) (Timecode.time ⟨1, 75, 99, 5⟩)) :=
      Edit.ofLine?_eq_some_iff.mp (ofLine?_eq_some_iff.mp hline).2
    exact hone _ _ _ _ hp hhide
  · have hhours : Text.IsField 2 "०१".toList 1 := ⟨rfl, List.all_eq_true.mp rfl, rfl⟩
    have hminutes : Text.IsField 2 "७५".toList 75 := ⟨rfl, List.all_eq_true.mp rfl, rfl⟩
    have hseconds : Text.IsField 2 "९९".toList 99 := ⟨rfl, List.all_eq_true.mp rfl, rfl⟩
    have hmillis : Text.IsField 3 "००५".toList 5 := ⟨rfl, List.all_eq_true.mp rfl, rfl⟩
    exact (hfields ⟨1, 75, 99, 5⟩ _ _ _ _ hhours hminutes hseconds hmillis).1

end Command

end Montage
