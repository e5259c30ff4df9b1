import Pipework.Proofs.Yaml.Gap

/-!
# What a quoted scalar takes

A quoted scalar is shorter than what its reader takes, by its quotes at the least
(`Yaml.readQuoted_takes`).
-/

namespace Pipework.Yaml

/-- No more characters come to a text than are taken. -/
structure Pays (text : List Char) (cursor : Cursor) (longer : List Char) (behind : Cursor) :
    Prop where
  isLeft : behind.rest <:+ cursor.rest
  isShort : longer.length + behind.rest.length ≤ text.length + cursor.rest.length

namespace Pays

variable {text middle longer : List Char} {cursor between behind : Cursor}

theorem refl
    (text : List Char) (cursor : Cursor) :
    Pays text cursor text cursor :=
  ⟨List.suffix_rfl, Nat.le_refl _⟩

theorem trans
    (first : Pays text cursor middle between) (second : Pays middle between longer behind) :
    Pays text cursor longer behind :=
  ⟨second.isLeft.trans first.isLeft, Nat.le_trans second.isShort first.isShort⟩

/-- A character for some others. -/
theorem of_skipMany
    {character : Char} (isNext : cursor.next? = some character) (text : List Char)
    (added : Char) (more : Nat) :
    Pays text cursor (text ++ [added]) (cursor.skipMany (more + 1)) := by
  obtain ⟨rest, isRest⟩ := Cursor.exists_rest_of_next? isNext
  refine ⟨List.drop_suffix _ _, ?_⟩
  simp only [Cursor.skipMany, isRest, List.length_append, List.length_cons, List.length_nil,
    List.drop_succ_cons, List.length_drop]
  omega

end Pays

variable {kind : QuoteKind} {cursor behind : Cursor}

theorem pays_of_readQuotedRun
    {fuel : Nat} {run longer : List Char} {stop : QuotedStop}
    (isRead : readQuotedRun kind fuel run cursor = some (longer, stop, behind)) :
    Pays run cursor longer behind := by
  induction fuel generalizing run cursor with
  | zero => exact nomatch isRead
  | succ fuel inductionHypothesis =>
      have stopsHere {stopped : QuotedStop}
          (isStop : some (run, stopped, cursor) = some (longer, stop, behind)) :
          Pays run cursor longer behind := by
        obtain ⟨rfl, isRest⟩ := Prod.mk.inj (Option.some.inj isStop)
        obtain ⟨-, rfl⟩ := Prod.mk.inj isRest
        exact .refl _ _
      rw [readQuotedRun] at isRead
      split at isRead
      · exact stopsHere isRead
      · rename_i character isNext
        have onwards {added : Char} {more : Nat}
            (isRead : readQuotedRun kind fuel (run ++ [added]) (cursor.skipMany (more + 1)) =
              some (longer, stop, behind)) :
            Pays run cursor longer behind :=
          (Pays.of_skipMany isNext run added more).trans (inductionHypothesis isRead)
        split_ifs at isRead
        · exact stopsHere isRead
        · exact onwards isRead
        · exact stopsHere isRead
        · split at isRead
          · exact nomatch isRead
          · split at isRead
            · obtain ⟨rfl, isRest⟩ := Prod.mk.inj (Option.some.inj isRead)
              obtain ⟨-, rfl⟩ := Prod.mk.inj isRest
              have isLeft := cursor.skip.suffix_skipBreak.trans cursor.suffix_skip
              exact ⟨isLeft, Nat.add_le_add_left isLeft.length_le _⟩
            · split at isRead
              · exact onwards isRead
              · exact nomatch isRead
              · rename_i count _ _
                obtain ⟨_, isRead⟩ := Option.ite_none_left_eq_some.mp isRead
                obtain ⟨value, -, isRead⟩ := Option.bind_eq_some_iff.mp isRead
                obtain ⟨meant, -, isRead⟩ := Option.bind_eq_some_iff.mp isRead
                rw [Nat.add_comm 2 count] at isRead
                exact onwards isRead
        · rw [Cursor.skip_eq_skipMany] at isRead
          exact onwards isRead

/-- Behind a quoted scalar its quote was taken, and no more characters came to the text. -/
theorem takes_of_readQuotedWithin
    {fuel : Nat} {text whole : List Char}
    (isRead : readQuotedWithin kind fuel text cursor = some (whole, behind)) :
    kind.char :: behind.rest <:+ cursor.rest ∧
      whole.length + (behind.rest.length + 1) ≤ text.length + cursor.rest.length := by
  induction fuel generalizing text cursor with
  | zero => exact nomatch isRead
  | succ fuel inductionHypothesis =>
      rw [readQuotedWithin] at isRead
      split at isRead
      · exact nomatch isRead
      · obtain ⟨⟨run, stop, ending⟩, isRun, isRead⟩ := Option.bind_eq_some_iff.mp isRead
        have paysRun := pays_of_readQuotedRun isRun
        have isShortRun := paysRun.isShort
        rw [List.length_nil] at isShortRun
        dsimp only at isRead
        split at isRead
        · exact nomatch isRead
        · rename_i character isNext
          obtain ⟨rest, isRest⟩ := Cursor.exists_rest_of_next? isNext
          split at isRead
          · rename_i isQuote
            obtain ⟨rfl, rfl⟩ := Prod.mk.inj (Option.some.inj isRead)
            rw [Cursor.rest_skip isRest, ← isQuote, ← isRest]
            refine ⟨paysRun.isLeft, ?_⟩
            rw [isRest, List.length_cons] at isShortRun
            rw [List.length_append]
            omega
          · obtain ⟨⟨gap, beyond⟩, isGap, isRead⟩ := Option.bind_eq_some_iff.mp isRead
            obtain ⟨skipped, skips⟩ := exists_skips isGap
            have isLength := congrArg List.length skips.isRest
            have isLeft : beyond.rest <:+ cursor.rest :=
              (skips.isRest ▸ List.suffix_append skipped beyond.rest).trans paysRun.isLeft
            rw [List.length_append] at isLength
            have onwards {added : List Char} (isShort : added.length ≤ skipped.length)
                (isRead : readQuotedWithin kind fuel (text ++ run ++ added) beyond =
                  some (whole, behind)) :
                kind.char :: behind.rest <:+ cursor.rest ∧
                  whole.length + (behind.rest.length + 1) ≤
                    text.length + cursor.rest.length := by
              obtain ⟨isBehind, isShortBehind⟩ := inductionHypothesis isRead
              simp only [List.length_append] at isShortBehind
              exact ⟨isBehind.trans isLeft, by omega⟩
            split at isRead
            · exact onwards skips.length_folded_le isRead
            · exact onwards
                (Nat.le_trans skips.length_breaks_le (List.length_filter_le _ _)) isRead

/-- A quoted scalar is shorter than what its reader takes, by its quotes at the least. -/
theorem readQuoted_takes
    {text : List Char} (isRead : readQuoted kind cursor = some (text, behind)) :
    kind.char :: behind.rest <:+ cursor.rest.tail ∧
      text.length + (behind.rest.length + 1) ≤ cursor.rest.tail.length := by
  obtain ⟨isLeft, isShort⟩ := takes_of_readQuotedWithin isRead
  rw [List.length_nil, Nat.zero_add] at isShort
  exact ⟨isLeft, isShort⟩

theorem suffix_of_readQuoted
    {text : List Char} (isRead : readQuoted kind cursor = some (text, behind)) :
    behind.rest <:+ cursor.rest :=
  ((List.suffix_cons _ _).trans (readQuoted_takes isRead).1).trans (List.tail_suffix _)

end Pipework.Yaml
