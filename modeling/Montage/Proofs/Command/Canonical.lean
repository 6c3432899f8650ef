import Montage.Proofs.Text.Lines
import Montage.Proofs.Text.Number
import Montage.Proofs.Timecode.Stamp
import Montage.Script

/-!
# Canonical texts of commands that were read

The edits that a line can ask for have paths without line feeds and times of timecodes.
Among them the canonical text tells the edit, and the canonical text of a list of commands
tells the edits of all of them.  So commands of the same fingerprint ask for the same edits,
unless two different texts have the same digest.
-/

namespace Montage

namespace Text

theorem scanDigits?_lt {count v : Nat} {cs rest : List Char}
    (h : scanDigits? count cs = some (v, rest)) :
  v < 10 ^ count
  := by
  rw [scanDigits?] at h
  split at h
  · rename_i hfront
    simp only [Bool.and_eq_true, decide_eq_true_eq] at hfront
    cases h
    have hlt := digitsValue_lt (cs.take count)
    rwa [hfront.1] at hlt
  · cases h

end Text

/-- What is read as a timecode is proper. -/
theorem Timecode.proper_of_scan? {t : Timecode} {cs rest : List Char}
    (h : scan? cs = some (t, rest)) :
  t.Proper
  := by
  simp only [scan?, Option.bind_eq_bind, Option.bind_eq_some_iff, Option.some.injEq,
    Option.pure_def, Prod.mk.injEq, Prod.exists] at h
  obtain ⟨hours, r₁, hhours, r₂, -, minutes, r₃, hminutes, r₄, -, seconds, r₅, hseconds, r₆, -,
    millis, r₇, hmillis, rfl, -⟩ := h
  exact ⟨Text.scanDigits?_lt hhours, Text.scanDigits?_lt hminutes, Text.scanDigits?_lt hseconds,
    Text.scanDigits?_lt hmillis⟩

namespace Edit

/-- The time of a proper timecode. -/
def IsTime (time : Double) : Prop :=
  ∃ t : Timecode, t.Proper ∧ t.time = time

/-- An edit that a line can ask for. -/
def Readable : Edit → Prop
  | load path => '\n' ∉ path.toList
  | cut time => IsTime time
  | range _ start stop => IsTime start ∧ IsTime stop

/-! ### Reading -/

theorem isTime_of_timeAfter? {time : Double} {cs rest : List Char}
    (h : timeAfter? cs = some (time, rest)) :
  IsTime time
  := by
  simp only [timeAfter?, Option.bind_eq_bind, Option.bind_eq_some_iff, Option.some.injEq,
    Option.pure_def, Prod.mk.injEq, Prod.exists] at h
  obtain ⟨r₁, -, t, r₂, hscan, rfl, -⟩ := h
  exact ⟨t, Timecode.proper_of_scan? hscan, rfl⟩

theorem not_mem_pathAfter? {cs path : List Char} (h : pathAfter? cs = some path) :
  '\n' ∉ path
  := by
  rw [pathAfter?] at h
  split at h
  · cases h
  · obtain ⟨c, hlast, rfl⟩ := Option.map_eq_some_iff.mp h
    have hc := (List.mem_filter.mp (List.mem_of_getLast? hlast)).2
    intro hmem
    obtain rfl := List.mem_singleton.mp hmem
    apply absurd hc (by decide)
  · dsimp only at h
    split at h
    · cases h
    · rename_i hfeed
      cases h
      simpa using hfeed

theorem mem_of_mem_unquoted {cs : List Char} {c : Char} (h : c ∈ unquoted cs) :
  c ∈ cs
  := by
  rw [unquoted.eq_def] at h
  split at h
  · split at h
    · apply List.mem_cons_of_mem _ ((List.dropLast_sublist _).mem h)
    · apply h
  · apply h

theorem readable_of_load? {cs : List Char} {e : Edit} (h : load? cs = some e) :
  e.Readable
  := by
  simp only [load?, Option.bind_eq_bind, Option.bind_eq_some_iff, Option.some.injEq,
    Option.pure_def] at h
  obtain ⟨rest, -, path, hpath, rfl⟩ := h
  rw [Readable, String.toList_ofList]
  intro hmem
  apply not_mem_pathAfter? hpath (mem_of_mem_unquoted hmem)

theorem readable_of_cut? {cs : List Char} {e : Edit} (h : cut? cs = some e) :
  e.Readable
  := by
  simp only [cut?, Option.bind_eq_bind, Option.bind_eq_some_iff, Option.some.injEq,
    Option.pure_def, Prod.exists] at h
  obtain ⟨rest, -, time, rest', htime, -, -, rfl⟩ := h
  apply isTime_of_timeAfter? htime

theorem readable_of_range? {verb : RangeVerb} {cs : List Char} {e : Edit}
    (h : range? verb cs = some e) :
  e.Readable
  := by
  simp only [range?, Option.bind_eq_bind, Option.bind_eq_some_iff, Option.some.injEq,
    Option.pure_def, Prod.exists] at h
  obtain ⟨r₁, -, start, r₂, hstart, stop, r₃, hstop, -, -, rfl⟩ := h
  exact ⟨isTime_of_timeAfter? hstart, isTime_of_timeAfter? hstop⟩

/-- What is read off a line can be asked for by a line. -/
theorem readable_of_ofLine? {line : String} {e : Edit} (h : ofLine? line = some e) :
  e.Readable
  := by
  simp only [ofLine?, Option.orElse_eq_orElse, Option.orElse_eq_or, Option.or_eq_some_iff] at h
  rcases h with h | ⟨-, h | ⟨-, h | ⟨-, h | ⟨-, h⟩⟩⟩⟩
  · apply readable_of_load? h
  · apply readable_of_cut? h
  · apply readable_of_range? h
  · apply readable_of_range? h
  · apply readable_of_range? h

/-! ### Writing -/

/-- The stamp of the time of a timecode has neither blanks nor line feeds in it. -/
theorem IsTime.stamp {time : Double} (h : IsTime time) :
  ∃ s, Timecode.stamp time = .ok s ∧ ' ' ∉ s.toList ∧ '\n' ∉ s.toList
  := by
  obtain ⟨t, ht, rfl⟩ := h
  refine ⟨_, Timecode.stamp_time ht, ?_, ?_⟩
  · intro hmem
    rcases Timecode.mem_ofMillis hmem with h | h | h <;> exact absurd h (by decide)
  · intro hmem
    rcases Timecode.mem_ofMillis hmem with h | h | h <;> exact absurd h (by decide)

theorem IsTime.eq_of_stamp {time time' : Double} {s : String} (h : IsTime time)
    (h' : IsTime time') (hs : Timecode.stamp time = .ok s) (hs' : Timecode.stamp time' = .ok s) :
  time = time'
  := by
  obtain ⟨t, ht, rfl⟩ := h
  obtain ⟨t', ht', rfl⟩ := h'
  have heq := (Timecode.stamp_time ht).symm.trans
    (hs.trans (hs'.symm.trans (Timecode.stamp_time ht')))
  apply Timecode.time_eq_of_ofMillis ht ht' (congrArg String.toList (Except.ok.inj heq))

/-- The keyword of an edit. -/
def keyword : Edit → List Char
  | load _ => "LOAD".toList
  | cut _ => "CUT".toList
  | range verb _ _ => verb.keyword.toList

/-- What follows the keyword in the canonical text of an edit. -/
def operands : Edit → Except Fault (List Char)
  | load path => .ok path.toList
  | cut time => String.toList <$> Timecode.stamp time
  | range _ start stop => do
    let s ← Timecode.stamp start
    let e ← Timecode.stamp stop
    return s.toList ++ ' ' :: e.toList

theorem keyword_isLine (e : Edit) :
  ' ' ∉ e.keyword ∧ Text.IsLine e.keyword
  := by
  rcases e with path | time | ⟨verb, start, stop⟩
  · rw [keyword, Text.IsLine]
    decide
  · rw [keyword, Text.IsLine]
    decide
  · rw [keyword, Text.IsLine]
    cases verb <;> decide

/-- The canonical text of an edit that was read. -/
theorem Readable.text {e : Edit} (h : e.Readable) :
  ∃ s rest, e.text = .ok s ∧ e.operands = .ok rest ∧ s.toList = e.keyword ++ ' ' :: rest
    ∧ '\n' ∉ rest
  := by
  rcases e with path | time | ⟨verb, start, stop⟩
  · exact ⟨_, _, rfl, rfl, by simp [keyword], h⟩
  · obtain ⟨s, hs, -, hfeed⟩ := IsTime.stamp h
    refine ⟨"CUT " ++ s, s.toList, ?_, ?_, ?_, hfeed⟩
    · rw [Edit.text, hs]
      rfl
    · rw [operands, hs]
      rfl
    · simp [keyword]
  · obtain ⟨s, hs, -, hfeed⟩ := IsTime.stamp h.1
    obtain ⟨s', hs', -, hfeed'⟩ := IsTime.stamp h.2
    refine ⟨verb.keyword ++ " " ++ s ++ " " ++ s', s.toList ++ ' ' :: s'.toList, ?_, ?_, ?_, ?_⟩
    · rw [Edit.text, hs, hs']
      rfl
    · rw [operands, hs, hs']
      rfl
    · simp [keyword]
    · simp [hfeed, hfeed']

/-- Edits with the same keyword are of one kind. -/
theorem eq_kind_of_keyword {e e' : Edit} (h : e.keyword = e'.keyword) :
  (∃ path path', e = load path ∧ e' = load path')
    ∨ (∃ time time', e = cut time ∧ e' = cut time')
    ∨ ∃ verb start stop start' stop', e = range verb start stop ∧ e' = range verb start' stop'
  := by
  rcases e with path | time | ⟨verb, start, stop⟩ <;>
    rcases e' with path' | time' | ⟨verb', start', stop'⟩ <;>
    rw [keyword, keyword] at h
  · exact Or.inl ⟨path, path', rfl, rfl⟩
  · exact absurd h (by decide)
  · cases verb' <;> exact absurd h (by decide)
  · exact absurd h (by decide)
  · exact Or.inr (Or.inl ⟨time, time', rfl, rfl⟩)
  · cases verb' <;> exact absurd h (by decide)
  · cases verb <;> exact absurd h (by decide)
  · cases verb <;> exact absurd h (by decide)
  · obtain rfl : verb = verb' := by
      revert h
      cases verb <;> cases verb' <;> decide
    exact Or.inr (Or.inr ⟨verb, start, stop, start', stop', rfl, rfl⟩)

/-- The canonical text of an edit tells the edit. -/
theorem Readable.eq_of_text {e e' : Edit} {s : String} (h : e.Readable) (h' : e'.Readable)
    (hs : e.text = .ok s) (hs' : e'.text = .ok s) :
  e = e'
  := by
  obtain ⟨_, rest, hs₁, hrest, hsplit, -⟩ := h.text
  obtain ⟨_, rest', hs₂, hrest', hsplit', -⟩ := h'.text
  obtain rfl := Except.ok.inj (hs.symm.trans hs₁)
  obtain rfl := Except.ok.inj (hs'.symm.trans hs₂)
  obtain ⟨hkeyword, rfl⟩ := Text.append_cons_inj e.keyword_isLine.1 e'.keyword_isLine.1
    (hsplit.symm.trans hsplit')
  have hoperands := hrest.trans hrest'.symm
  rcases eq_kind_of_keyword hkeyword with ⟨path, path', rfl, rfl⟩ | ⟨time, time', rfl, rfl⟩
    | ⟨verb, start, stop, start', stop', rfl, rfl⟩
  · rw [String.toList_inj.mp (Except.ok.inj hoperands)]
  · obtain ⟨t, ht, -, -⟩ := IsTime.stamp h
    obtain ⟨t', ht', -, -⟩ := IsTime.stamp h'
    rw [operands, operands, ht, ht'] at hoperands
    obtain rfl := String.toList_inj.mp (Except.ok.inj hoperands)
    rw [IsTime.eq_of_stamp h h' ht ht']
  · obtain ⟨t₁, ht₁, hblank₁, -⟩ := IsTime.stamp h.1
    obtain ⟨t₂, ht₂, -, -⟩ := IsTime.stamp h.2
    obtain ⟨t₁', ht₁', hblank₁', -⟩ := IsTime.stamp h'.1
    obtain ⟨t₂', ht₂', -, -⟩ := IsTime.stamp h'.2
    rw [operands, operands, ht₁, ht₂, ht₁', ht₂'] at hoperands
    obtain ⟨hstart, hstop⟩ := Text.append_cons_inj hblank₁ hblank₁' (Except.ok.inj hoperands)
    obtain rfl := String.toList_inj.mp hstart
    obtain rfl := String.toList_inj.mp hstop
    rw [IsTime.eq_of_stamp h.1 h'.1 ht₁ ht₁', IsTime.eq_of_stamp h.2 h'.2 ht₂ ht₂']

end Edit

namespace Command

/-- Commands that lines can ask for. -/
def Readable (cs : List Command) : Prop :=
  ∀ c ∈ cs, c.edit.Readable

/-- Two lists of commands with different canonical texts of the same digest. -/
def Collide (cs cs' : List Command) : Prop :=
  ∃ s s', canonical cs = .ok s ∧ canonical cs' = .ok s' ∧ s ≠ s'
    ∧ Digest.ofText s = Digest.ofText s'

theorem not_collide_self (cs : List Command) :
  ¬ Collide cs cs
  := by
  rintro ⟨s, s', hs, hs', hne, -⟩
  exact hne (Except.ok.inj (hs.symm.trans hs'))

theorem readable_ofLines (lines : List String) (first : Int) :
  Readable (ofLines lines first)
  := by
  induction lines generalizing first with
  | nil =>
      intro c hc
      cases hc
  | cons line rest ih =>
      rw [ofLines]
      cases hline : ofLine? line first with
      | none => apply ih
      | some c =>
          obtain ⟨e, he, rfl⟩ := Option.map_eq_some_iff.mp hline
          intro c' hc'
          rcases List.mem_cons.mp hc' with rfl | hrest
          · apply Edit.readable_of_ofLine? he
          · apply ih _ c' hrest

/-- What is read can be asked for. -/
theorem readable_ofBody (body : String) (offset : Int) :
  Readable (ofBody body offset)
  := readable_ofLines _ _

/-- The canonical texts of commands that were read are lines. -/
theorem Readable.mapM_text {cs : List Command} (h : Readable cs) :
  ∃ texts, cs.mapM text = .ok texts ∧ ∀ l ∈ texts.map String.toList, Text.IsLine l
  := by
  induction cs with
  | nil => exact ⟨[], rfl, nofun⟩
  | cons c rest ih =>
      obtain ⟨s, operands, hs, -, hsplit, hfeed⟩ := (h c List.mem_cons_self).text
      obtain ⟨texts, htexts, hlines⟩ := ih fun c' hc' => h c' (List.mem_cons_of_mem c hc')
      refine ⟨s :: texts, ?_, ?_⟩
      · rw [List.mapM_cons, htexts, text, hs]
        rfl
      · rw [List.map_cons]
        intro l hl
        rcases List.mem_cons.mp hl with rfl | hrest
        · have hkeyword := c.edit.keyword_isLine.2
          rw [hsplit]
          exact ⟨by simp, by simp [hkeyword.2, hfeed]⟩
        · apply hlines l hrest

/-- Commands that were read have a canonical text. -/
theorem Readable.canonical_ok {cs : List Command} (h : Readable cs) :
  ∃ s, canonical cs = .ok s
  := by
  obtain ⟨texts, htexts, -⟩ := h.mapM_text
  rw [canonical, htexts]
  exact ⟨_, rfl⟩

/-- Commands that were read have a fingerprint. -/
theorem Readable.fingerprint_ok {cs : List Command} (h : Readable cs) :
  ∃ fp, fingerprint cs = .ok fp
  := by
  obtain ⟨s, hs⟩ := h.canonical_ok
  rw [fingerprint, hs]
  exact ⟨_, rfl⟩

theorem of_mapM_text_cons {c : Command} {rest : List Command} {texts : List String}
    (h : (c :: rest).mapM text = .ok texts) :
  ∃ s ss, texts = s :: ss ∧ c.text = .ok s ∧ rest.mapM text = .ok ss
  := by
  rw [List.mapM_cons] at h
  cases hc : c.text with
  | error f =>
      rw [hc] at h
      cases h
  | ok s =>
      cases hrest : rest.mapM text with
      | error f =>
          rw [hc, hrest] at h
          cases h
      | ok ss =>
          rw [hc, hrest] at h
          cases h
          exact ⟨s, ss, rfl, rfl, rfl⟩

/-- The canonical texts of commands that were read tell their edits. -/
theorem Readable.edits_eq_of_mapM {cs cs' : List Command} {texts : List String}
    (h : Readable cs) (h' : Readable cs') (htexts : cs.mapM text = .ok texts)
    (htexts' : cs'.mapM text = .ok texts) :
  cs.map (·.edit) = cs'.map (·.edit)
  := by
  induction cs generalizing cs' texts with
  | nil =>
      cases htexts
      cases cs' with
      | nil => rfl
      | cons c' rest' =>
          obtain ⟨s, ss, heq, -, -⟩ := of_mapM_text_cons htexts'
          cases heq
  | cons c rest ih =>
      obtain ⟨s, ss, rfl, hs, hss⟩ := of_mapM_text_cons htexts
      cases cs' with
      | nil => cases htexts'
      | cons c' rest' =>
          obtain ⟨s', ss', heq, hs', hss'⟩ := of_mapM_text_cons htexts'
          obtain ⟨rfl, rfl⟩ := List.cons.inj heq
          have hedit := (h c List.mem_cons_self).eq_of_text (h' c' List.mem_cons_self) hs hs'
          have hedits := ih (fun x hx => h x (List.mem_cons_of_mem c hx))
            (fun x hx => h' x (List.mem_cons_of_mem c' hx)) hss hss'
          rw [List.map_cons, List.map_cons, hedit, hedits]

/-- Commands that were read and have the same canonical text ask for the same edits. -/
theorem Readable.edits_eq_of_canonical {cs cs' : List Command} {s : String} (h : Readable cs)
    (h' : Readable cs') (hs : canonical cs = .ok s) (hs' : canonical cs' = .ok s) :
  cs.map (·.edit) = cs'.map (·.edit)
  := by
  obtain ⟨texts, htexts, hlines⟩ := h.mapM_text
  obtain ⟨texts', htexts', hlines'⟩ := h'.mapM_text
  rw [canonical, htexts] at hs
  rw [canonical, htexts'] at hs'
  have hjoined : Text.unlines texts = Text.unlines texts' :=
    (Except.ok.inj hs).trans (Except.ok.inj hs').symm
  rw [Text.unlines, Text.unlines, String.ofList_inj] at hjoined
  have hlists := Text.joinLines_injective hlines hlines' hjoined
  have hsame : texts = texts' :=
    (List.map_inj_right fun _ _ => String.toList_inj.mp).mp hlists
  rw [← hsame] at htexts'
  apply h.edits_eq_of_mapM h' htexts htexts'

/-- Commands that were read and have the same fingerprint ask for the same edits, unless their
canonical texts collide. -/
theorem Readable.edits_eq_of_fingerprint {cs cs' : List Command} {fp : String}
    (h : Readable cs) (h' : Readable cs') (hfp : fingerprint cs = .ok fp)
    (hfp' : fingerprint cs' = .ok fp) :
  cs.map (·.edit) = cs'.map (·.edit) ∨ Collide cs cs'
  := by
  cases hs : canonical cs with
  | error f =>
      rw [fingerprint, hs] at hfp
      cases hfp
  | ok s =>
      cases hs' : canonical cs' with
      | error f =>
          rw [fingerprint, hs'] at hfp'
          cases hfp'
      | ok s' =>
          by_cases hsame : s = s'
          · left
            subst hsame
            apply h.edits_eq_of_canonical h' hs hs'
          · right
            rw [fingerprint, hs] at hfp
            rw [fingerprint, hs'] at hfp'
            exact ⟨s, s', hs, hs', hsame, Except.ok.inj (hfp.trans hfp'.symm)⟩

/-! ### Commands of texts -/

theorem commands_ofText (text : String) :
  (Script.ofText text).commands
    = ofBody (Header.bodyText text (Header.split text).2) (Header.split text).2
  := by
  rw [Script.ofText]

theorem readable_ofText (text : String) :
  Readable (Script.ofText text).commands
  := by
  rw [commands_ofText]
  apply readable_ofBody

end Command

end Montage
