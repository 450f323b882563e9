import CallFlow.Proofs.Assembly
import CallFlow.Proofs.Coverage
import Mathlib.Data.Set.Card

/-!
# Where the host stands in a dialplan

The walk over a script does not know the host, so a host changes neither whether a dialplan is
compiled nor what goes wrong (`Dialplan.failure?_compile_host`). In the text it stands once in the
header of each AGI switch and nowhere else: a text that depends on the host is `Slotted` when it is
that host between fixed pieces, and slots add up when texts are joined (`Slotted.append`,
`Slotted.join`). In a body there is one slot for each id of an AGI switch that a call can reach
(`Script.ncard_agiSwitches`).
-/

namespace CallFlow

open Relation

/-- A text for every host that has the host in `k` places, between pieces that no host changes. -/
def Slotted (k : Nat) (text : String → String) : Prop :=
  ∃ pieces : List String, pieces.length = k + 1 ∧
    ∀ host : String, text host = host.intercalate pieces

/-- The line names the host. -/
def Line.needsHost : Line → Bool
  | .header b => b.needsHost
  | _ => false

/-- The ids of AGI switches that a call can reach from where it enters the script. -/
def Script.agiSwitches (s : Script) : Set LocalId :=
  {i | ∃ entry b, s.start? = some entry ∧ ReflTransGen (s.Leads entry) entry.id i ∧
    s.blockFrom entry i = some b ∧ b.needsHost = true}

section
variable {k l : Nat} {text text' : String → String} {s : Script} {entry : Block}

/-! ## Slots -/

/-- A text that does not depend on the host has no slot. -/
theorem slotted_const (text : String) : Slotted 0 fun _ => text :=
  ⟨[text], rfl, fun _ => String.intercalate_singleton.symm⟩

/-- The host itself is one slot. -/
theorem slotted_host : Slotted 1 fun host => host :=
  ⟨["", ""], rfl, fun host => by simp⟩

/-- The pieces of two texts, one behind the other: the last piece of the first text and the first
piece of the second are one. -/
theorem intercalate_append_cons (host a b : String) (ps qs : List String) :
    host.intercalate (ps ++ (a ++ b) :: qs) =
      host.intercalate (ps ++ [a]) ++ host.intercalate (b :: qs) := by
  induction ps with
  | nil =>
    rw [List.nil_append, List.nil_append, String.intercalate_cons_append,
      String.intercalate_singleton]
  | cons p ps ih =>
    have hcons : ∀ {qs : List String}, qs ≠ [] →
        host.intercalate (p :: qs) = p ++ host ++ host.intercalate qs :=
      String.intercalate_cons_of_ne_nil
    rw [List.cons_append, List.cons_append, hcons (by simp), ih, hcons (by simp)]
    simp only [String.append_assoc]

/-- The slots of two texts, one behind the other, add up. -/
theorem Slotted.append (ht : Slotted k text) (ht' : Slotted l text') :
    Slotted (k + l) fun host => text host ++ text' host := by
  obtain ⟨pieces, hlen, htext⟩ := ht
  obtain ⟨pieces', hlen', htext'⟩ := ht'
  obtain rfl | ⟨ps, a, rfl⟩ := List.eq_nil_or_concat pieces
  · simp at hlen
  obtain _ | ⟨b, qs⟩ := pieces'
  · simp at hlen'
  -- Two pieces become one, so the number of pieces is one less and the slots add up.
  refine ⟨ps ++ (a ++ b) :: qs, ?_, fun host => ?_⟩
  · simp only [List.concat_eq_append, List.length_append, List.length_cons, List.length_nil] at *
    omega
  · dsimp only
    rw [htext, htext', intercalate_append_cons, List.concat_eq_append]

/-- The slots of texts that are joined add up. -/
theorem Slotted.join {α : Type} {k : α → Nat} {text : α → String → String} {xs : List α}
    (h : ∀ x ∈ xs, Slotted (k x) (text x)) :
    Slotted (xs.map k).sum fun host => String.join (xs.map (text · host)) := by
  induction xs with
  | nil => exact slotted_const ""
  | cons x xs ih =>
    rw [List.forall_mem_cons] at h
    simp only [List.map_cons, List.sum_cons, String.join_cons]
    exact h.1.append (ih h.2)

/-! ## Lines -/

/-- Only an AGI switch runs an application that depends on the host. -/
theorem Block.application_eq {b : Block} (h : b.needsHost = false) (host host' : Option String) :
    b.kind.application host = b.kind.application host' := by
  unfold needsHost at h
  cases hk : b.kind with
  | agiSwitch script => simp [hk] at h
  | dial destination timeout => cases timeout <;> rfl
  | _ => rfl

/-- A line that does not name the host does not depend on it. -/
theorem Line.text_eq {l : Line} (h : l.needsHost = false) (host host' : Option String) :
    l.text host = l.text host' := by
  cases l with
  | header b => simp only [text, application, Block.application_eq h host host']
  | jumpIf | jump | hangup => rfl

/-- A line that names the host has one slot. -/
theorem Line.slotted_text_of_needsHost {l : Line} (h : l.needsHost = true) :
    Slotted 1 fun host => l.text (some host) := by
  cases l with
  | header b =>
    unfold needsHost Block.needsHost at h
    cases hk : b.kind with
    | agiSwitch script =>
      simp only [text, label, application, hk, Kind.application, Kind.agiAddress, Application.text]
      have haddress : Slotted 1 fun host => "agi://" ++ host ++ "/" ++ script :=
        (((slotted_const _).append slotted_host).append (slotted_const _)).append (slotted_const _)
      have hrun : Slotted 1 fun host =>
          "AGI" ++ "(" ++ ("agi://" ++ host ++ "/" ++ script) ++ ")" :=
        ((slotted_const _).append haddress).append (slotted_const _)
      exact ((slotted_const _).append hrun).append (slotted_const _)
    | _ => simp [hk] at h
  | jumpIf | jump | hangup => cases h

/-- A line has as many slots as headers of AGI switches: one or none. -/
theorem Line.slotted_text (l : Line) :
    Slotted (if l.needsHost then 1 else 0) fun host => l.text (some host) := by
  cases h : l.needsHost with
  | true => exact slotted_text_of_needsHost h
  | false =>
    have hconst : (fun host => l.text (some host)) = fun _ => l.text none :=
      funext fun host => text_eq h _ _
    rw [hconst]
    exact slotted_const _

/-- The slots of lines are those of the headers of AGI switches among them. -/
theorem Line.slotted_textAll (ls : List Line) :
    Slotted (ls.countP needsHost) fun host => textAll (some host) ls := by
  induction ls with
  | nil => exact slotted_const ""
  | cons l ls ih =>
    have hcons := l.slotted_text.append ih
    rw [List.countP_cons, Nat.add_comm]
    simpa only [textAll, List.map_cons, String.join_cons] using hcons

/-! ## Bodies -/

/-- The headers of AGI switches among the lines of a walk are those of the AGI switches that it
renders. -/
theorem Trace.countP_needsHost_lines (t : Trace) :
    (t.items.flatMap Item.lines).countP Line.needsHost = t.rendered.countP Block.needsHost := by
  rw [← filterMap_rendered?_lines, List.countP_filterMap]
  congr 1
  funext l
  cases l <;> rfl

/-- Without a fault the walk renders each AGI switch that a call can reach once, and no other. -/
theorem Script.ncard_agiSwitches (hs : s.start? = some entry) (hf : (s.walk entry).fault = none) :
    s.agiSwitches.ncard = (s.walk entry).rendered.countP Block.needsHost := by
  have hw := s.walked_walk entry
  -- The walk renders no id twice, so to count the blocks is to count their ids.
  let ids := ((s.walk entry).rendered.filter Block.needsHost).map (·.id)
  have hnodup : ids.Nodup := hw.nodup_done.1.sublist (List.filter_sublist.map _)
  have hmem : s.agiSwitches = ids.toFinset := by
    ext i
    rw [Finset.mem_coe, List.mem_toFinset, List.mem_map]
    constructor
    · rintro ⟨entry', b, hs', hr, hb, hneeds⟩
      cases hs.symm.trans hs'
      obtain ⟨c, hc, rfl⟩ := Trace.mem_done.1 ((mem_done_walk hf).2 hr)
      obtain rfl : c = b :=
        Option.some_inj.1 ((hw.rendered_sound sourced_entry c hc).1.symm.trans hb)
      exact ⟨c, List.mem_filter.2 ⟨hc, hneeds⟩, rfl⟩
    · rintro ⟨b, hb, rfl⟩
      obtain ⟨hb, hneeds⟩ := List.mem_filter.1 hb
      have hr := (mem_done_walk hf).1 (Trace.mem_done.2 ⟨b, hb, rfl⟩)
      exact ⟨entry, b, hs, hr, (hw.rendered_sound sourced_entry b hb).1, hneeds⟩
  rw [hmem, Set.ncard_coe_finset, List.toFinset_card_of_nodup hnodup, List.length_map,
    List.countP_eq_length_filter]

/-- A script fails to compile, whatever the host, with the fault of its walk. -/
theorem Script.failure?_compile (s : Script) (host : String) :
    failure? (s.compile host) = s.walkStart.fault := by
  unfold compile body Trace.lines
  rw [failure?_map]
  cases s.walkStart.fault <;> rfl

/-- A script that compiles has lines that no host changes. -/
theorem Script.compile_of_fault_eq_none (h : s.walkStart.fault = none) (host : String) :
    s.compile host = .ok (Line.textAll (some host) (s.walkStart.items.flatMap Item.lines)) := by
  unfold compile body Trace.lines
  rw [h]
  rfl

/-- The body of a script has a slot for each AGI switch that a call can reach. -/
theorem Script.slotted_body (h : s.walkStart.fault = none) : Slotted s.agiSwitches.ncard fun host =>
    Line.textAll (some host) (s.walkStart.items.flatMap Item.lines) := by
  cases hs : s.start? with
  | none => simp [walkStart, hs, Trace.stop] at h
  | some entry =>
    have hwalk : s.walkStart = s.walk entry := by simp only [walkStart, hs]
    rw [hwalk] at h ⊢
    rw [ncard_agiSwitches hs h, ← Trace.countP_needsHost_lines]
    exact Line.slotted_textAll _

/-! ## Dialplans -/

/-- The fault of the script that an extension carries. -/
def Extension.fault? (e : Extension) : Option Fault :=
  e.script.bind fun s => s.walkStart.fault

/-- The text of the body behind an extension, when its script has no fault. -/
def Extension.bodyText (host : String) (e : Extension) : String :=
  match e.script with
  | some s => Line.textAll (some host) (s.walkStart.items.flatMap Item.lines)
  | none => ""

/-- The number of AGI switches that a call can reach in the script that an extension carries. -/
noncomputable def Extension.slots (e : Extension) : Nat :=
  match e.script with
  | some s => s.agiSwitches.ncard
  | none => 0

/-- An extension has no body for the fault of its script, whatever the host. -/
theorem Extension.failure?_body (e : Extension) (host : String) :
    failure? (e.body host) = e.fault? := by
  unfold body fault?
  cases e.script with
  | none => rfl
  | some s => exact s.failure?_compile host

/-- An extension whose script has no fault has a body with a slot for each AGI switch that a call
can reach. -/
theorem Extension.body_of_fault? {e : Extension} (h : e.fault? = none) :
    (∀ host, e.body host = .ok (e.bodyText host)) ∧
      Slotted e.slots fun host => e.bodyText host := by
  unfold fault? at h
  unfold body bodyText slots
  cases hs : e.script with
  | none => exact ⟨fun _ => rfl, slotted_const ""⟩
  | some s =>
    rw [hs, Option.bind_some] at h
    exact ⟨s.compile_of_fault_eq_none h, s.slotted_body h⟩

/-- The slots of a layout are those of its bodies. -/
theorem Dialplan.slotted_layout {cs : List Context} {body : String → Extension → String}
    {slots : Extension → Nat}
    (h : ∀ e ∈ extensions cs, Slotted (slots e) fun host => body host e) :
    Slotted ((extensions cs).map slots).sum fun host => layout (body host) cs := by
  have hcontext : ∀ c ∈ cs, Slotted (c.extensions.map slots).sum fun host =>
      c.header ++ String.join (c.extensions.map fun e => e.line ++ body host e) := by
    intro c hc
    have hextension : ∀ e ∈ c.extensions, Slotted (slots e) fun host => e.line ++ body host e := by
      intro e he
      have hline := (slotted_const e.line).append (h e (mem_extensions.2 ⟨c, hc, he⟩))
      rwa [Nat.zero_add] at hline
    have hheader := (slotted_const c.header).append (Slotted.join hextension)
    rwa [Nat.zero_add] at hheader
  have hsum : ((extensions cs).map slots).sum =
      (cs.map fun c => (c.extensions.map slots).sum).sum := by
    rw [extensions, List.map_flatMap, List.flatMap_def, List.sum_flatten, List.map_map]
    rfl
  rw [hsum]
  exact Slotted.join hcontext

/-- The slots of extensions are the AGI switches of the scripts that they carry. -/
theorem Extension.sum_slots (es : List Extension) : (es.map slots).sum =
    ((es.filterMap (·.script)).map fun s => s.agiSwitches.ncard).sum := by
  induction es with
  | nil => rfl
  | cons e es ih =>
    rw [List.map_cons, List.sum_cons, ih, List.filterMap_cons, slots]
    cases e.script with
    | none => exact Nat.zero_add _
    | some s => rfl

/-- A dialplan fails for the first fault of a script in it, whatever the host. -/
theorem Dialplan.failure?_compile_host (cs : List Context) (host : String) :
    failure? (compile cs host) = (extensions cs).findSome? Extension.fault? := by
  rw [failure?_compile]
  exact findSome?_congr fun e _ => e.failure?_body host

/-- **The host stands in the lines of AGI switches only.** A dialplan fails with one fault for every
host, or its text is the host between fixed pieces, once for each id of an AGI switch that a call
can reach in the script of an extension. Each of these scripts fails with one fault for every host,
or has lines that no host changes; and without an AGI switch in reach no host changes the dialplan.
-/
theorem Dialplan.host_stands_in_agi_lines (cs : List Context) :
    ((∃ f, ∀ host, compile cs host = .error f) ∨
      ∃ pieces : List String,
        pieces.length = ((cs.flatMap Context.scripts).map fun s => s.agiSwitches.ncard).sum + 1 ∧
        ∀ host : String, compile cs host = .ok (host.intercalate pieces)) ∧
    (∀ s ∈ cs.flatMap Context.scripts, (∃ f, ∀ host, s.compile host = .error f) ∨
      ∃ ls, ∀ host, s.compile host = .ok (Line.textAll (some host) ls)) ∧
    ((∀ s ∈ cs.flatMap Context.scripts, s.agiSwitches = ∅) →
      ∀ host host', compile cs host = compile cs host') := by
  have hscripts : cs.flatMap Context.scripts = (extensions cs).filterMap (·.script) := by
    rw [extensions, List.filterMap_flatMap]
    rfl
  have hmain : (∃ f, ∀ host, compile cs host = .error f) ∨ ∃ pieces : List String,
      pieces.length = ((cs.flatMap Context.scripts).map fun s => s.agiSwitches.ncard).sum + 1 ∧
        ∀ host : String, compile cs host = .ok (host.intercalate pieces) := by
    cases hf : (extensions cs).findSome? Extension.fault? with
    | some f =>
      exact .inl ⟨f, fun host => failure?_eq_some.1 ((failure?_compile_host cs host).trans hf)⟩
    | none =>
      have hbody := fun e he => Extension.body_of_fault? (List.findSome?_eq_none_iff.1 hf e he)
      obtain ⟨pieces, hlen, htext⟩ := slotted_layout fun e he => (hbody e he).2
      rw [Extension.sum_slots, ← hscripts] at hlen
      refine .inr ⟨pieces, hlen, fun host => ?_⟩
      rw [compile_of_body fun e he => (hbody e he).1 host, ← htext]
  refine ⟨hmain, fun s _ => ?_, fun hnone host host' => ?_⟩
  · cases hf : s.walkStart.fault with
    | some f => exact .inl ⟨f, fun host => failure?_eq_some.1 ((s.failure?_compile host).trans hf)⟩
    | none => exact .inr ⟨_, s.compile_of_fault_eq_none hf⟩
  · rcases hmain with ⟨f, hf⟩ | ⟨pieces, hlen, htext⟩
    · rw [hf, hf]
    · have hsum : ((cs.flatMap Context.scripts).map fun s => s.agiSwitches.ncard).sum = 0 := by
        refine List.sum_eq_zero fun n hn => ?_
        obtain ⟨s, hs, rfl⟩ := List.mem_map.1 hn
        rw [hnone s hs, Set.ncard_empty]
      rw [hsum] at hlen
      obtain ⟨piece, rfl⟩ := List.length_eq_one_iff.1 hlen
      rw [htext, htext, String.intercalate_singleton, String.intercalate_singleton]

end

end CallFlow
