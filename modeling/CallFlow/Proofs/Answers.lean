import CallFlow.Proofs.Cache
import CallFlow.Proofs.Refresh
import CallFlow.Proofs.Rows

/-!
# Answers as a client reads them

A client gets one text: maybe a warning, then a dialplan, then a footer. It can take them apart
though the dialplan may hold any text, even one that looks like a warning or a footer. The footer
begins at the last place where its mark stands (`withoutFooter?_append`), because no mark begins
inside a footer (`Timing.Clocked.not_infix_footer`): it has two more rows, and neither goes on as
the mark does. And a dialplan that was renewed is never taken for a warning, because it begins with
the header of a context if it is not empty (`Dialplan.layout_cases`). So a client finds the dialplan
and whether it is up to date (`Reading.ofAnswer?`).
-/

namespace CallFlow

/-- What stands in a text before the last place where a mark stands. -/
def beforeLast? (mark : List Char) : List Char → Option (List Char)
  | [] => if mark = [] then some [] else none
  | c :: cs =>
    match beforeLast? mark cs with
    | some before => some (c :: before)
    | none => if mark.isPrefixOf (c :: cs) then some [] else none

/-- What a footer begins with. -/
def footerMark : String :=
  "\n; Generated by Dialgraph in "

/-- The answer without its footer. -/
def withoutFooter? (answer : String) : Option String :=
  (beforeLast? footerMark.toList answer.toList).map String.ofList

/-- What a client finds in an answer: a dialplan, and whether it is up to date. -/
structure Reading where
  current : Bool
  dialplan : String
deriving DecidableEq, Repr

/-- Reads an answer. The footer is cut off, and then the warning, if there is one. -/
def Reading.ofAnswer? (answer : String) : Option Reading :=
  (withoutFooter? answer).map fun body =>
    if cacheWarning.toList.isPrefixOf body.toList then
      ⟨false, String.ofList (body.toList.drop cacheWarning.toList.length)⟩
    else ⟨true, body⟩

/-- The time is told as a clock tells it: in one row that begins with a digit or a sign. -/
structure Timing.Clocked (t : Timing) : Prop where
  head : ∃ c cs, t.stamp.toList = c :: cs ∧ (c.isDigit = true ∨ c = '+' ∨ c = '-')
  row : NoNewline t.stamp

section
variable {mark before cs : List Char} {t : Timing} {v : Service} {text : String}

/-! ## The last mark -/

/-- Where no mark stands, nothing stands before the last one. -/
theorem beforeLast?_eq_none : beforeLast? mark cs = none ↔ ¬ mark <:+: cs := by
  induction cs with
  | nil => simp [beforeLast?]
  | cons c cs ih =>
    rw [List.infix_cons_iff, beforeLast?]
    cases hcs : beforeLast? mark cs with
    | none => simp [ih.1 hcs]
    | some before =>
      have hinside : mark <:+: cs := by
        by_contra hnone
        rw [ih.2 hnone] at hcs
        cases hcs
      simp [hinside]

/-- What is cut off begins with the mark, and no mark begins further behind. -/
theorem beforeLast?_eq_some (hmark : mark ≠ []) : beforeLast? mark cs = some before ↔
    ∃ after, cs = before ++ (mark ++ after) ∧ ¬ mark <:+: (mark ++ after).tail := by
  induction cs generalizing before with
  | nil => simp [beforeLast?, hmark]
  | cons c cs ih =>
    cases before with
    | nil =>
      -- The mark stands in front, so the rest holds none.
      have hnil : beforeLast? mark (c :: cs) = some [] ↔ mark <+: c :: cs ∧ ¬ mark <:+: cs := by
        rw [beforeLast?, ← beforeLast?_eq_none]
        cases beforeLast? mark cs <;> simp
      rw [hnil]
      constructor
      · rintro ⟨⟨after, hafter⟩, hcs⟩
        exact ⟨after, hafter.symm, by rwa [hafter]⟩
      · rintro ⟨after, hafter, hcs⟩
        rw [List.nil_append] at hafter
        rw [← hafter] at hcs
        exact ⟨⟨after, hafter.symm⟩, hcs⟩
    | cons b before =>
      have hcons : beforeLast? mark (c :: cs) = some (b :: before) ↔
          c = b ∧ beforeLast? mark cs = some before := by
        rw [beforeLast?]
        cases beforeLast? mark cs <;> simp
      rw [hcons, ih]
      simp [and_assoc]

/-! ## Footers -/

/-- A footer begins with its mark, and behind it stand two newlines. -/
theorem Timing.toList_footer (t : Timing) : t.footer.toList = footerMark.toList ++
    ((t.elapsed.repr ++ "ms").toList ++ '\n' :: (("; " ++ t.stamp).toList ++ ['\n'])) := by
  have hrows : "ms\n; ".toList = "ms".toList ++ '\n' :: "; ".toList := by decide
  have hend : "\n".toList = ['\n'] := by decide
  have hfooter : t.footer = footerMark ++ t.elapsed.repr ++ "ms\n; " ++ t.stamp ++ "\n" := rfl
  rw [hfooter]
  simp only [String.toList_append, hrows, hend, List.append_assoc, List.cons_append]

/-- Where a text begins with a row, a newline in it is the one behind the row or stands further
behind. -/
theorem eq_or_exists_of_append_newline {row rest front back : List Char} (hrow : '\n' ∉ row)
    (h : row ++ '\n' :: rest = front ++ '\n' :: back) :
    (front = row ∧ back = rest) ∨ ∃ more, rest = more ++ '\n' :: back := by
  rcases List.append_eq_append_iff.1 h with ⟨ws, rfl, hrest⟩ | ⟨ws, rfl, hback⟩
  · cases ws with
    | nil =>
      cases hrest
      exact .inl ⟨List.append_nil _, rfl⟩
    | cons w ws =>
      cases hrest
      exact .inr ⟨ws, rfl⟩
  · cases ws with
    | nil =>
      cases hback
      exact .inl ⟨(List.append_nil _).symm, rfl⟩
    | cons w ws =>
      cases hback
      exact absurd (List.mem_append_right _ List.mem_cons_self) hrow

/-- No mark begins inside a footer. -/
theorem Timing.Clocked.not_infix_footer (ht : t.Clocked) :
    ¬ footerMark.toList <:+: t.footer.toList.tail := by
  obtain ⟨c, cs, hstamp, hc⟩ := ht.head
  rintro ⟨front, back, h⟩
  have hmark : footerMark.toList = '\n' :: "; Generated by Dialgraph in ".toList := by decide
  have hrow : '\n' ∉ "; Generated by Dialgraph in ".toList ++ (t.elapsed.repr ++ "ms").toList := by
    simp only [String.toList_append, List.mem_append, not_or]
    exact ⟨by decide, noNewline_repr t.elapsed, by decide⟩
  have hlast : '\n' ∉ ("; " ++ t.stamp).toList := by
    simp only [String.toList_append, List.mem_append, not_or]
    exact ⟨by decide, ht.row⟩
  rw [t.toList_footer, hmark, List.cons_append, List.tail_cons, ← List.append_assoc,
    List.append_assoc front, List.cons_append] at h
  -- A mark begins with a newline, and there are two left: one between the rows, one at the end.
  rcases eq_or_exists_of_append_newline hrow h.symm with ⟨-, hback⟩ | ⟨more, hmore⟩
  · rw [String.toList_append, hstamp] at hback
    have hG : 'G' = c := Option.some_inj.1 (congrArg (·[2]?) hback)
    subst hG
    revert hc
    decide
  · rcases eq_or_exists_of_append_newline hlast hmore with ⟨-, hback⟩ | ⟨more, hmore⟩
    · cases hback
    · exact absurd hmore.symm (List.append_ne_nil_of_right_ne_nil _ (List.cons_ne_nil _ _))

/-- The last mark of an answer is where its footer begins. -/
theorem withoutFooter?_append (body : String) (ht : t.Clocked) :
    withoutFooter? (body ++ t.footer) = some body := by
  have hcut : beforeLast? footerMark.toList (body ++ t.footer).toList = some body.toList := by
    have hinside := ht.not_infix_footer
    rw [t.toList_footer] at hinside
    refine (beforeLast?_eq_some (by decide)).2 ⟨_, ?_, hinside⟩
    rw [String.toList_append, t.toList_footer]
  rw [withoutFooter?, hcut, Option.map_some, String.ofList_toList]

/-! ## Warnings -/

/-- A dialplan is empty, or it begins with a bracket. -/
theorem Dialplan.layout_cases (body : Extension → String) (cs : List Context) :
    layout body cs = "" ∨ ∃ rest, layout body cs = "[" ++ rest := by
  cases cs with
  | nil => exact .inl rfl
  | cons c cs =>
    refine .inr ⟨c.name ++ ("]\n" ++ (String.join (c.extensions.map fun e => e.line ++ body e) ++
      layout body cs)), ?_⟩
    simp only [layout, List.map_cons, String.join_cons, Context.header, String.append_assoc]

/-- A text that begins with another character does not begin with the warning. -/
theorem not_prefix_of_head {c : Char} (hc : c ≠ ';') : ¬ cacheWarning.toList <+: c :: cs := by
  have hwarning : cacheWarning.toList = ';' :: cacheWarning.toList.tail := by decide
  rw [hwarning, List.cons_prefix_cons]
  exact fun h => hc h.1.symm

/-- A dialplan that was renewed does not begin with the warning, and nor does its answer. -/
theorem Service.not_prefix_of_refresh (h : v.refresh = .ok text) :
    ¬ cacheWarning.toList <+: text.toList ∧
    ¬ cacheWarning.toList <+: (text ++ t.footer).toList := by
  obtain ⟨cs, body, -, rfl, -⟩ := refresh_eq_ok.1 h
  rcases Dialplan.layout_cases body cs with hempty | ⟨rest, hrest⟩
  · have hmark : footerMark.toList = '\n' :: footerMark.toList.tail := by decide
    rw [hempty, String.empty_append, t.toList_footer, hmark]
    exact ⟨by decide, not_prefix_of_head (by decide)⟩
  · have hbracket : "[".toList = ['['] := by decide
    rw [hrest, String.append_assoc, String.toList_append, String.toList_append, hbracket]
    exact ⟨not_prefix_of_head (by decide), not_prefix_of_head (by decide)⟩

/-- An answer begins with the warning exactly when the dialplan could not be renewed. -/
theorem Service.exists_respond_eq (v : Service) (held : String) (t : Timing) :
    (∃ rest, v.respond held t = cacheWarning ++ rest) ↔ ∃ err, v.refresh = .error err := by
  unfold respond serve
  cases h : v.refresh with
  | error err => simp [String.append_assoc]
  | ok text =>
    have hnot := (not_prefix_of_refresh (t := t) h).2
    simp only [reduceCtorEq, exists_false, iff_false]
    rintro ⟨rest, hrest⟩
    exact hnot ⟨rest.toList, by rw [hrest, String.toList_append]⟩

/-- A client finds in an answer what the cache holds after it, and whether the dialplan could be
renewed. -/
theorem Service.ofAnswer?_respond (v : Service) (held : String) (ht : t.Clocked) :
    Reading.ofAnswer? (v.respond held t) = some ⟨v.refresh.isOk, v.keep held⟩ := by
  rw [Reading.ofAnswer?, respond, withoutFooter?_append _ ht, Option.map_some]
  unfold serve keep
  cases h : v.refresh with
  | error err => simp [Except.isOk, Except.toBool]
  | ok text => simp [(not_prefix_of_refresh (t := t) h).1, Except.isOk, Except.toBool]

/-- **A client can decode every answer.** Whatever the store, the settings and the cache hold, an
answer to a demand for the whole dialplan can be cut at the last mark of a footer, and what is left
is all that stands above the footer. The answer begins with the warning exactly when the dialplan
could not be renewed; then the warning and what the cache held before are left, and otherwise what
the cache holds afterwards. So a client reads the dialplan and knows whether it is up to date. -/
theorem Turn.answer_is_decoded (v : Service) (i : Nat) (caches : Nat → String) {t : Timing}
    (ht : t.Clocked) :
    let u : Turn := ⟨v, i, .dialplan t⟩
    ∃ answer body, u.reply (caches i) = .dialplan answer ∧ withoutFooter? answer = some body ∧
      answer = body ++ t.footer ∧
      ((∃ rest, answer = cacheWarning ++ rest) ↔ ∃ err, v.refresh = .error err) ∧
      (∀ err, v.refresh = .error err → body = cacheWarning ++ caches i) ∧
      (∀ text, v.refresh = .ok text → body = u.after caches i) ∧
      Reading.ofAnswer? answer = some ⟨v.refresh.isOk, u.after caches i⟩ := by
  intro u
  have hafter : u.after caches i = v.keep (caches i) := Function.update_self i _ caches
  refine ⟨v.respond (caches i) t, v.serve (caches i), rfl, withoutFooter?_append _ ht, rfl,
    v.exists_respond_eq _ t, fun err h => ?_, fun text h => ?_, ?_⟩
  · simp only [Service.serve, h]
  · simp only [hafter, Service.serve, Service.keep, h]
  · rw [hafter, v.ofAnswer?_respond _ ht]

end

/-- A store that is down is answered for from a cache that holds a warning and a footer itself. -/
theorem Service.down_is_decoded :
    let t : Timing := ⟨12, "2024.03.05 07:08:09.000"⟩
    let v : Service := ⟨⟨fun i => .error (.scriptNotFound i), .error (.unavailable "down")⟩, {}⟩
    let cached := cacheWarning ++ "[in]\n" ++ t.footer
    t.Clocked ∧ withoutFooter? (v.respond cached t) = some (cacheWarning ++ cached) := by
  intro t v cached
  have hstamp : t.stamp.toList = '2' :: "024.03.05 07:08:09.000".toList := by decide
  have hrow : NoNewline t.stamp := by
    unfold NoNewline
    decide
  have ht : t.Clocked := ⟨⟨'2', _, hstamp, .inl rfl⟩, hrow⟩
  obtain ⟨answer, body, hreply, hbody, -, -, herror, -⟩ :=
    Turn.answer_is_decoded v 0 (fun _ => cached) ht
  cases hreply
  exact ⟨ht, hbody.trans (congrArg some (herror _ rfl))⟩

end CallFlow
