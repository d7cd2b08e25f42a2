import NetworkLoading.Proofs.Yaml.Quoted
import NetworkLoading.Yaml.Style

/-!
# Styles of text

What the style in which a text is written says about the text: that it is read back in this style.
-/

namespace NetworkLoading.Yaml

variable {cs : List Char} {c : Char} {s : String}

/-! ## Characters -/

theorem isPrintable_of_isVisible (h : isVisible c = true) : isPrintable c = true := by
  simp only [isVisible, isPrintable, Bool.and_eq_true, Bool.or_eq_true, decide_eq_true_iff] at h ⊢
  omega

theorem ne_tab_of_isPrintable (h : isPrintable c = true) : c ≠ '\t' := by
  rintro rfl
  cases h

/-- What is neither blank nor a break nor the beginning of a comment can begin something. -/
theorem isToken_of_isPrintable (h : isPrintable c = true) (hbreak : isBreak c = false)
    (hspace : c ≠ ' ') (hcomment : c ≠ '#') : isToken c = true := by
  have hmark : c ≠ '\ufeff' := by
    rintro rfl
    cases h
  simp [isToken, isWhite, hbreak, hspace, ne_tab_of_isPrintable h, hcomment, hmark]

theorem head?_all_endsWord (h : wordEnds cs = true) : cs.head?.all endsWord = true := by
  cases cs with
  | nil => rfl
  | cons c cs =>
    rw [wordEnds, Bool.or_eq_true] at h
    rcases h with h | h <;> simp [endsWord, isLineEnd, h]

/-! ## Plain texts -/

/-- A colon which ends no word is followed by something. -/
theorem not_wordEnds_of_colon (h : hasPair (· = ':') endsWord (':' :: cs) = false)
    (hlast : (':' :: cs).getLast? ≠ some ':') : wordEnds cs = false := by
  by_contra hends
  have hall := head?_all_endsWord (by simpa using hends)
  rw [hasPair_cons, Bool.or_eq_false_iff] at h
  cases cs with
  | nil => exact hlast rfl
  | cons c cs => simp_all

/-- A text of one line goes on to its end if no colon stands before the end of a word and no number
sign behind one. -/
theorem goesOn_of_noPair {blank : Bool} (hprintable : cs.all isPrintable = true)
    (hbreak : cs.any isBreak = false) (hcolon : hasPair (· = ':') endsWord cs = false)
    (hlast : cs.getLast? ≠ some ':') (hcomment : hasPair endsWord (· = '#') cs = false)
    (hmargin : cs.getLast? ≠ some ' ') (hblank : blank = true → cs ≠ [] ∧ cs.head? ≠ some '#') :
    goesOn blank cs = true := by
  induction cs generalizing blank with
  | nil => simpa [goesOn] using hblank
  | cons c cs ih =>
    rw [List.all_cons, Bool.and_eq_true] at hprintable
    rw [List.any_cons, Bool.or_eq_false_iff] at hbreak
    -- A colon ends a plain scalar only before a blank or at the end, and neither occurs.
    have hends : c = ':' → wordEnds cs = false := by
      rintro rfl
      exact not_wordEnds_of_colon hcolon hlast
    rw [hasPair_cons, Bool.or_eq_false_iff] at hcolon hcomment
    have hlast' : cs.getLast? ≠ some ':' := fun he => hlast (by simp [List.getLast?_cons, he])
    have hmargin' : cs.getLast? ≠ some ' ' := fun he => hmargin (by simp [List.getLast?_cons, he])
    have hrest (b : Bool) := @ih b hprintable.2 hbreak.2 hcolon.2 hlast' hcomment.2 hmargin'
    rw [goesOn]
    split
    · rename_i hc
      subst hc
      refine hrest true fun _ => ⟨?_, ?_⟩
      · rintro rfl
        exact hmargin rfl
      · intro he
        simp [he, endsWord, isWhite] at hcomment
    · simp only [Bool.and_eq_true, Bool.not_eq_true', decide_eq_true_iff, Bool.and_eq_false_iff,
        decide_eq_false_iff_not]
      refine ⟨⟨⟨⟨hbreak.1, ne_tab_of_isPrintable hprintable.1⟩, ?_⟩, ?_⟩, hrest false (by simp)⟩
      · by_cases hb : blank = true
        · exact .inr fun hc => (hblank hb).2 (by simp [hc])
        · exact .inl (by simpa using hb)
      · by_cases hc : c = ':'
        · exact .inr (hends hc)
        · exact .inl hc

/-- An indicator at the start of a text keeps it from being plain. -/
theorem plainStarts_of_not_hasIndicator (hne : cs ≠ []) (hprintable : cs.all isPrintable = true)
    (hbreak : cs.any isBreak = false) (hmargin : cs.head? ≠ some ' ')
    (h : hasIndicator cs = false) : plainStarts false cs = true := by
  obtain ⟨c, cs, rfl⟩ := List.exists_cons_of_ne_nil hne
  rw [List.all_cons, Bool.and_eq_true] at hprintable
  rw [List.any_cons, Bool.or_eq_false_iff] at hbreak
  simp only [hasIndicator, Bool.or_eq_false_iff, decide_eq_false_iff_not] at h
  obtain ⟨⟨⟨⟨⟨hstart, -⟩, -⟩, hcolon⟩, hlast⟩, -⟩ := h
  have hwhite : isWhite c = false := by
    have hspace : c ≠ ' ' := fun he => hmargin (by simp [he])
    simp [isWhite, hspace, ne_tab_of_isPrintable hprintable.1]
  rw [plainStarts, if_neg (by simp [hwhite, hbreak.1])]
  by_cases hhyphen : c = '-' ∨ c = '?'
  · rw [if_pos (by simpa using hhyphen.symm)] at hstart
    have hends : wordEnds cs = false := by
      by_contra hends
      rw [head?_all_endsWord (by simpa using hends)] at hstart
      cases hstart
    rcases hhyphen with rfl | rfl <;> simp [hends]
  · obtain ⟨hhyphen, hmark⟩ := not_or.1 hhyphen
    rw [if_neg (by simp [hhyphen, hmark])] at hstart
    rw [if_neg hhyphen]
    by_cases hc : c = ':'
    · subst hc
      simp [not_wordEnds_of_colon hcolon hlast]
    · -- Printer and reader list the same indicators in different orders.
      have hperm : List.Perm "#,[]\x7b\x7d&*!|>'\"%@\x60".toList
          ",[]\x7b\x7d#&*!|>'\"%@\x60".toList := by decide
      rw [if_neg (by simp [hmark, hc]), ← hperm.contains_eq, hstart, Bool.not_false]

/-! ## The choice -/

theorem all_isPrintable_of_not_needsEscapes (h : needsEscapes cs = false) :
    cs.all isPrintable = true := by
  rw [needsEscapes, Bool.or_eq_false_iff, Bool.not_eq_false'] at h
  exact h.1

/-- All characters of a text are written as they are, unless it is between double quotes. -/
theorem all_isPrintable_of_style (h : Style.of s ≠ .double) : s.toList.all isPrintable = true := by
  rw [Style.of] at h
  by_cases he : needsEscapes s.toList = true
  · rw [if_pos he] at h
    exact absurd rfl h
  · exact all_isPrintable_of_not_needsEscapes (by simpa using he)

/-- A text which needs no escapes and has line breaks is written as a block. Without line breaks it
is plain only if nothing about it could be misread. -/
theorem style_cases (s : String) :
    Style.of s = .double ∨ needsEscapes s.toList = false ∧
      (Style.of s = .literal ∧ '\n' ∈ s.toList ∨
        '\n' ∉ s.toList ∧ hasPair isBreak (· = ' ') s.toList = false ∧
          (Style.of s = .single ∨ Style.of s = .plain ∧
            (isTaken s || hasIndicator s.toList || hasMargin s.toList || s.toList.any isBreak) =
              false)) := by
  simp only [Style.of]
  split
  · exact .inl rfl
  rename_i hescapes
  split
  · rename_i hfeed
    split
    · exact .inl rfl
    · exact .inr ⟨by simpa using hescapes, .inl ⟨rfl, hfeed⟩⟩
  rename_i hfeed
  split
  · exact .inl rfl
  rename_i hbehind
  refine .inr ⟨by simpa using hescapes, .inr ⟨hfeed, by simpa using hbehind, ?_⟩⟩
  split
  · exact .inl rfl
  · rename_i hplain
    exact .inr ⟨rfl, by simpa using hplain⟩

theorem isPlain_of_style (h : Style.of s = .plain) : IsPlain s.toList := by
  have hprintable : s.toList.all isPrintable = true := all_isPrintable_of_style (by simp [h])
  obtain he | ⟨-, ⟨he, -⟩ | ⟨-, -, he | ⟨-, hplain⟩⟩⟩ := style_cases s
  · cases h.symm.trans he
  · cases h.symm.trans he
  · cases h.symm.trans he
  simp only [Bool.or_eq_false_iff] at hplain
  obtain ⟨⟨⟨htaken, hindicator⟩, hmargin⟩, hbreak⟩ := hplain
  have hne : s.toList ≠ [] := by
    intro he
    obtain rfl : s = "" := String.toList_eq_nil_iff.1 he
    cases htaken
  simp only [hasMargin, Bool.or_eq_false_iff] at hmargin
  refine ⟨plainStarts_of_not_hasIndicator hne hprintable hbreak ?_ hindicator, ?_⟩
  · intro he
    simp [he] at hmargin
  · simp only [hasIndicator, Bool.or_eq_false_iff, decide_eq_false_iff_not] at hindicator
    obtain ⟨⟨⟨-, hcolon⟩, hlast⟩, hcomment⟩ := hindicator
    refine goesOn_of_noPair hprintable hbreak hcolon hlast hcomment ?_ (by simp)
    intro he
    simp [he] at hmargin

theorem isSingle_of_style (h : Style.of s = .single) : IsSingle s.toList := by
  have hprintable : s.toList.all isPrintable = true := all_isPrintable_of_style (by simp [h])
  obtain he | ⟨hescapes, ⟨he, -⟩ | ⟨hfeed, hbehind, -⟩⟩ := style_cases s
  · cases h.symm.trans he
  · cases h.symm.trans he
  rw [needsEscapes, Bool.or_eq_false_iff] at hescapes
  refine ⟨fun htab => ?_, hfeed, hescapes.2, hbehind⟩
  exact ne_tab_of_isPrintable (List.all_eq_true.1 hprintable _ htab) rfl

theorem mem_feed_of_style (h : Style.of s = .literal) : '\n' ∈ s.toList := by
  obtain he | ⟨-, ⟨-, hfeed⟩ | ⟨-, -, he | ⟨he, -⟩⟩⟩ := style_cases s
  · cases h.symm.trans he
  · exact hfeed
  · cases h.symm.trans he
  · cases h.symm.trans he

end NetworkLoading.Yaml
