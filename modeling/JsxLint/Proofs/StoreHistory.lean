import JsxLint.Proofs.StoreSteps
import Mathlib.Data.List.Induction

/-! What the store of variables answers, told from the calls made on it since it was empty. A
history lists its calls in the order they were made. Spans are only compared: nothing here
depends on where a scope stands in a file. -/
namespace JsxLint.DerivedStore

inductive Call
  | record (name : String) (scope span : Span)
  | bindPlain (name : String) (scope span : Span)
  | consume (name : String) (scopes : List Span)
  | defer (name : String) (scopes : List Span)
  | takeDeferred
  deriving DecidableEq, Repr

namespace Call

def step : Call → DerivedStore → DerivedStore
  | record name scope span, store => store.record name scope span
  | bindPlain name scope span, store => store.bindPlain name scope span
  | consume name scopes, store => (store.consume name scopes).2
  | defer name scopes, store => store.defer name scopes
  | takeDeferred, store => store.takeDeferred.2

def answer? : Call → DerivedStore → Option Resolution
  | consume name scopes, store => some (store.consume name scopes).1
  | _, _ => none

def isRecord : Call → Bool
  | record _ _ _ => true
  | _ => false

def Writes (name : String) (scope : Span) : Call → Prop
  | record n s _ => n = name ∧ s = scope
  | bindPlain n s _ => n = name ∧ s = scope
  | _ => False

/-- The call does not put another variable in the place of the condition at `span`. -/
def Spares (name : String) (scope span : Span) : Call → Prop
  | record n s _ => ¬ (n = name ∧ s = scope)
  | bindPlain n s sp => n = name → s = scope → sp = span
  | _ => True

end Call

def after (calls : List Call) : DerivedStore :=
  calls.foldl (fun store call => call.step store) empty

def handsOut : Resolution → Bool
  | .derived _ => true
  | _ => false

def resolutions : List Call → DerivedStore → List Resolution
  | [], _ => []
  | call :: calls, store => (call.answer? store).toList ++ resolutions calls (call.step store)

def Written (calls : List Call) (name : String) (scope : Span) : Prop :=
  ∃ call ∈ calls, call.Writes name scope

/-- A condition was recorded at `span`, and every call since, seen with the calls before it, has
the property. -/
def RecordedSince (p : List Call → Call → Prop) (calls : List Call) (name : String)
    (scope span : Span) : Prop :=
  ∃ past since, calls = past ++ .record name scope span :: since ∧
    ∀ before call later, since = before ++ call :: later →
      p (past ++ .record name scope span :: before) call

/-- The name stands for the condition recorded last, at `span`: no other variable has taken its
place. -/
def Holds (calls : List Call) (name : String) (scope span : Span) : Prop :=
  RecordedSince (fun _ call => call.Spares name scope span) calls name scope span

/-- The name stands for the condition recorded last, at `span`, and no call of `consume` has
resolved to it since. -/
def Ready (calls : List Call) (name : String) (scope span : Span) : Prop :=
  RecordedSince (fun before call => call.Spares name scope span ∧
    ∀ scopes, call = .consume name scopes → ¬ FirstWith (Written before name) scopes scope)
    calls name scope span

/-- The first scope written for the name holds the condition at `span`. -/
def Reads (calls : List Call) (name : String) (scopes : List Span) (span : Span) : Prop :=
  ∃ scope, FirstWith (Written calls name) scopes scope ∧ Holds calls name scope span

lemma after_snoc (calls : List Call) (call : Call) :
    after (calls ++ [call]) = call.step (after calls) := by
  simp [after]

lemma written_snoc (calls : List Call) (call : Call) (name : String) (scope : Span) :
    Written (calls ++ [call]) name scope ↔ Written calls name scope ∨ call.Writes name scope := by
  simp only [Written, List.mem_append, List.mem_singleton]
  constructor
  · rintro ⟨c, hc | rfl, hw⟩
    · exact Or.inl ⟨c, hc, hw⟩
    · exact Or.inr hw
  · rintro (⟨c, hc, hw⟩ | hw)
    · exact ⟨c, Or.inl hc, hw⟩
    · exact ⟨call, Or.inr rfl, hw⟩

/-- Read from its end, a history either has just recorded the condition, or had it before and
keeps it. -/
lemma recordedSince_snoc (p : List Call → Call → Prop) (calls : List Call) (call : Call)
    (name : String) (scope span : Span) :
    RecordedSince p (calls ++ [call]) name scope span ↔
      call = .record name scope span ∨ RecordedSince p calls name scope span ∧ p calls call := by
  constructor
  · rintro ⟨past, since, heq, hsince⟩
    rcases List.eq_nil_or_concat since with rfl | ⟨since, last, rfl⟩
    · obtain ⟨-, hlast⟩ := List.append_inj' heq rfl
      exact Or.inl (List.cons.inj hlast).1
    · have heq' : calls ++ [call] = (past ++ .record name scope span :: since) ++ [last] := by
        simpa using heq
      obtain ⟨rfl, hlast⟩ := List.append_inj' heq' rfl
      obtain rfl := (List.cons.inj hlast).1
      refine Or.inr ⟨⟨past, since, rfl, ?_⟩, hsince since call [] (by simp)⟩
      intro before c later hsplit
      exact hsince before c (later ++ [call]) (by simp [hsplit])
  · rintro (rfl | ⟨⟨past, since, rfl, hsince⟩, hcall⟩)
    · exact ⟨calls, [], rfl, fun before c later h => by simp at h⟩
    · refine ⟨past, since ++ [call], by simp, ?_⟩
      intro before c later hsplit
      rcases List.eq_nil_or_concat later with rfl | ⟨later, last, rfl⟩
      · obtain ⟨rfl, hlast⟩ := List.append_inj' hsplit rfl
        obtain rfl := (List.cons.inj hlast).1
        exact hcall
      · have hsplit' : since ++ [call] = (before ++ c :: later) ++ [last] := by
          simpa using hsplit
        exact hsince before c later (List.append_inj' hsplit' rfl).1

lemma record_mem_of_holds {calls : List Call} {name : String} {scope span : Span}
    (h : Holds calls name scope span) : Call.record name scope span ∈ calls := by
  obtain ⟨past, since, rfl, -⟩ := h
  simp

/-- Scopes without the name are passed over. -/
lemma reads_append_iff {calls : List Call} {name : String} {inner : List Span}
    (hinner : ∀ s ∈ inner, ¬ Written calls name s) (outer : List Span) (span : Span) :
    Reads calls name (inner ++ outer) span ↔ Reads calls name outer span := by
  induction inner with
  | nil => rfl
  | cons s inner ih =>
    have hs : ¬ Written calls name s := hinner s List.mem_cons_self
    rw [← ih fun t ht => hinner t (List.mem_cons_of_mem s ht)]
    constructor
    · rintro ⟨scope, hfirst, hholds⟩
      rcases firstWith_cons hfirst with ⟨-, hw⟩ | ⟨-, hrest⟩
      · exact absurd hw hs
      · exact ⟨scope, hrest, hholds⟩
    · rintro ⟨scope, hfirst, hholds⟩
      exact ⟨scope, firstWith_tail hs hfirst, hholds⟩

lemma SameView.step {a b : DerivedStore} (h : SameView a b) (call : Call) :
    SameView (call.step a) (call.step b) := by
  cases call with
  | record n s span => exact h.put n s _
  | bindPlain n s span => exact h.bindPlain n s span
  | consume n scopes =>
    exact ((sameView_consume n scopes a).trans h).trans (sameView_consume n scopes b).symm
  | defer n scopes => exact h
  | takeDeferred => exact h

lemma knows_step (call : Call) (store : DerivedStore) (name : String) (scope : Span) :
    (call.step store).Knows name scope ↔ store.Knows name scope ∨ call.Writes name scope := by
  cases call with
  | record n s span =>
    rw [Call.step, Knows, find?_record, Call.Writes]
    by_cases h : name = n ∧ scope = s
    · simp [h]
    · rw [if_neg h, Knows]
      exact ⟨Or.inl, fun hk => hk.resolve_right fun hw => h ⟨hw.1.symm, hw.2.symm⟩⟩
  | bindPlain n s span =>
    rw [Call.step, Knows, find?_bindPlain, Call.Writes, Knows]
    by_cases h : name = n ∧ scope = s
    · obtain ⟨rfl, rfl⟩ := h
      cases store.find? name scope with
      | none => simp
      | some v => by_cases hv : v.span = span <;> simp [hv]
    · rw [if_neg (fun hc => h ⟨hc.1, hc.2.1⟩)]
      exact ⟨Or.inl, fun hk => hk.resolve_right fun hw => h ⟨hw.1.symm, hw.2.symm⟩⟩
  | consume n scopes =>
    simp only [Call.step, Knows, Call.Writes, or_false]
    rcases find?_consume n scopes store name scope with h | ⟨-, -, span, hold, -, hnew⟩
    · rw [h]
    · simp [hold, hnew]
  | defer n scopes => simp [Call.step, Knows, Call.Writes]
  | takeDeferred => simp [Call.step, Knows, Call.Writes]

/-- Calls other than a read of the name only enter variables: what the entry says of a condition
is new or was there before. -/
lemma find?_step {call : Call} {name : String} {status : Status} (hcond : status ≠ .plain)
    (hread : ∀ scopes, call ≠ .consume name scopes) (store : DerivedStore) (scope span : Span) :
    (call.step store).find? name scope = some ⟨span, status⟩ ↔
      call = .record name scope span ∧ status = .pending ∨
      store.find? name scope = some ⟨span, status⟩ ∧ call.Spares name scope span := by
  cases call with
  | record n s sp =>
    rw [Call.step, find?_record, Call.Spares]
    by_cases h : name = n ∧ scope = s
    · obtain ⟨rfl, rfl⟩ := h
      simp [eq_comm]
    · have hne : ¬ (n = name ∧ s = scope) := fun hw => h ⟨hw.1.symm, hw.2.symm⟩
      rw [if_neg h]
      constructor
      · exact fun hold => Or.inr ⟨hold, hne⟩
      · rintro (⟨heq, -⟩ | ⟨hold, -⟩)
        · obtain ⟨rfl, rfl, rfl⟩ := Call.record.inj heq
          exact absurd ⟨rfl, rfl⟩ hne
        · exact hold
  | bindPlain n s sp =>
    rw [Call.step, find?_bindPlain, Call.Spares]
    simp only [reduceCtorEq, false_and, false_or]
    by_cases h : name = n ∧ scope = s
    · obtain ⟨rfl, rfl⟩ := h
      cases store.find? name scope with
      | none => simp [hcond.symm]
      | some v =>
        obtain ⟨vspan, vstatus⟩ := v
        by_cases hsame : vspan = sp
        · subst hsame
          simp only [Option.any_some, decide_true, not_true_eq_false, and_false, if_false,
            Option.some.injEq, Variable.mk.injEq]
          exact ⟨fun h => ⟨h, fun _ _ => h.1⟩, And.left⟩
        · simp only [Option.any_some, hsame, decide_false, Bool.false_eq_true, not_false_eq_true,
            and_self, if_true, Option.some.injEq, Variable.mk.injEq, forall_const]
          constructor
          · exact fun h => absurd h.2.symm hcond
          · exact fun h => absurd (h.1.1.trans h.2.symm) hsame
    · have hne : n = name → s = scope → sp = span := fun hn hs => absurd ⟨hn.symm, hs.symm⟩ h
      rw [if_neg (fun hc => h ⟨hc.1, hc.2.1⟩)]
      exact ⟨fun hold => ⟨hold, hne⟩, And.left⟩
  | consume n scopes =>
    have hother : n ≠ name := by
      intro hn
      exact hread scopes (by rw [hn])
    simp only [Call.step, Call.Spares, reduceCtorEq, false_and, false_or, and_true]
    rcases find?_consume n scopes store name scope with h | ⟨hn, -⟩
    · rw [h]
    · exact absurd hn hother
  | defer n scopes => simp [Call.step, Call.Spares]
  | takeDeferred => simp [Call.step, Call.Spares]

lemma hasCondition_step (call : Call) (store : DerivedStore) (name : String) (scope span : Span) :
    (call.step store).HasCondition name scope span ↔
      call = .record name scope span ∨
      store.HasCondition name scope span ∧ call.Spares name scope span := by
  by_cases hread : ∃ scopes, call = .consume name scopes
  · obtain ⟨scopes, rfl⟩ := hread
    simp only [Call.step, Call.Spares, reduceCtorEq, false_or, and_true]
    exact (sameView_consume name scopes store).hasCondition_iff name scope span
  · have hread' : ∀ scopes, call ≠ .consume name scopes := fun s hs => hread ⟨s, hs⟩
    constructor
    · rintro ⟨status, hcond, hfind⟩
      rcases (find?_step hcond hread' store scope span).mp hfind with ⟨rfl, -⟩ | ⟨hold, hspare⟩
      · exact Or.inl rfl
      · exact Or.inr ⟨⟨status, hcond, hold⟩, hspare⟩
    · rintro (rfl | ⟨⟨status, hcond, hold⟩, hspare⟩)
      · exact ⟨.pending, by simp, by simp [Call.step, find?_record]⟩
      · exact ⟨status, hcond, (find?_step hcond hread' store scope span).mpr
          (Or.inr ⟨hold, hspare⟩)⟩

lemma pending_step (call : Call) (store : DerivedStore) (name : String) (scope span : Span) :
    (call.step store).find? name scope = some ⟨span, .pending⟩ ↔
      call = .record name scope span ∨
      store.find? name scope = some ⟨span, .pending⟩ ∧ call.Spares name scope span ∧
        ∀ scopes, call = .consume name scopes → ¬ FirstWith (store.Knows name) scopes scope := by
  by_cases hread : ∃ scopes, call = .consume name scopes
  · obtain ⟨scopes, rfl⟩ := hread
    simp only [Call.step, Call.Spares, reduceCtorEq, false_or, true_and, Call.consume.injEq,
      forall_eq']
    rcases find?_consume name scopes store name scope with h | ⟨-, hfirst, sp, -, -, hnew⟩
    · rw [h]
      refine ⟨fun hold => ⟨hold, fun hfirst => ?_⟩, And.left⟩
      have hsettled := consume_settles hfirst ⟨.pending, by simp, hold⟩
      rw [h, hold] at hsettled
      simp at hsettled
    · rw [hnew]
      constructor
      · intro h; simp at h
      · exact fun h => absurd hfirst h.2
  · have hread' : ∀ scopes, call ≠ .consume name scopes := fun s hs => hread ⟨s, hs⟩
    rw [find?_step (by simp) hread']
    simp only [and_true]
    refine or_congr_right (and_congr_right fun _ => ?_)
    exact ⟨fun h => ⟨h, fun scopes hs => absurd hs (hread' scopes)⟩, And.left⟩

/-- A name is known in a scope exactly if some call entered it there. -/
theorem knows_after_iff (calls : List Call) (name : String) (scope : Span) :
    (after calls).Knows name scope ↔ Written calls name scope := by
  induction calls using List.reverseRecOn with
  | nil => simp [after, Knows, Written]
  | append_singleton calls call ih => rw [after_snoc, knows_step, written_snoc, ih]

lemma knows_after (calls : List Call) (name : String) :
    (after calls).Knows name = Written calls name :=
  funext fun scope => propext (knows_after_iff calls name scope)

/-- The store holds a condition, reported or not, exactly if the history does. -/
theorem hasCondition_after_iff (calls : List Call) (name : String) (scope span : Span) :
    (after calls).HasCondition name scope span ↔ Holds calls name scope span := by
  induction calls using List.reverseRecOn with
  | nil => simp [after, HasCondition, Holds, RecordedSince]
  | append_singleton calls call ih =>
    rw [after_snoc, hasCondition_step, Holds, recordedSince_snoc, ih, Holds]

lemma finds_after_iff (calls : List Call) (name : String) (scopes : List Span) (span : Span) :
    (after calls).Finds name scopes span ↔ Reads calls name scopes span := by
  simp only [Finds, Reads, knows_after, hasCondition_after_iff]

/-- A condition is pending exactly if the history has it ready. -/
theorem pending_after_iff (calls : List Call) (name : String) (scope span : Span) :
    (after calls).find? name scope = some ⟨span, .pending⟩ ↔ Ready calls name scope span := by
  induction calls using List.reverseRecOn with
  | nil => simp [after, Ready, RecordedSince]
  | append_singleton calls call ih =>
    rw [after_snoc, pending_step, Ready, recordedSince_snoc, ih, Ready, knows_after]

lemma contains_after_iff (calls : List Call) (name : String) (scope : Span) :
    (after calls).contains name scope = true ↔ ∃ span, Ready calls name scope span := by
  simp only [contains, ← pending_after_iff]
  cases (after calls).find? name scope with
  | none => simp
  | some v =>
    obtain ⟨span, status⟩ := v
    simp [eq_comm]

lemma handsOut_step (call : Call) (store : DerivedStore) :
    (call.answer? store).toList.countP handsOut + (call.step store).pendings (fun _ _ => true) ≤
      store.pendings (fun _ _ => true) + if call.isRecord then 1 else 0 := by
  cases call with
  | record n s span =>
    simpa [Call.answer?, Call.step, Call.isRecord] using
      pendings_record_le (fun _ _ => true) store n s span
  | bindPlain n s span =>
    simpa [Call.answer?, Call.step, Call.isRecord] using
      pendings_bindPlain_le (fun _ _ => true) store n s span
  | consume n scopes =>
    simp only [Call.answer?, Call.step, Call.isRecord, Option.toList_some, List.countP_singleton]
    rcases pendings_consume (fun _ _ => true) n scopes store with ⟨span, hans, hle⟩ | ⟨hans, heq⟩
    · rw [hans]
      simp only [handsOut, if_true] at hle ⊢
      omega
    · have hkept : handsOut (store.consume n scopes).1 = false := by
        cases h : (store.consume n scopes).1 with
        | derived span => exact absurd h (hans span)
        | other => rfl
        | unbound => rfl
      simp [hkept, heq]
  | defer n scopes => simp [Call.answer?, Call.step, Call.isRecord, defer, pendings]
  | takeDeferred => simp [Call.answer?, Call.step, Call.isRecord, takeDeferred, pendings]

/-- Over any run of calls the conditions handed out were pending at its start or recorded in it. -/
theorem handsOut_resolutions_le (calls : List Call) (store : DerivedStore) :
    (resolutions calls store).countP handsOut ≤
      store.pendings (fun _ _ => true) + calls.countP Call.isRecord := by
  induction calls generalizing store with
  | nil => simp [resolutions]
  | cons call calls ih =>
    have hstep := handsOut_step call store
    have hrest := ih (call.step store)
    rw [resolutions, List.countP_append, List.countP_cons]
    omega

lemma Ready.unique {calls : List Call} {name : String} {scope span span' : Span}
    (h : Ready calls name scope span) (h' : Ready calls name scope span') : span = span' := by
  rw [← pending_after_iff] at h h'
  have hsame := Option.some.inj (h.symm.trans h')
  exact congrArg Variable.span hsame

/-- The three outcomes of a read, told from the history. -/
theorem consume_after_cases (calls : List Call) (name : String) (scopes : List Span) :
    (∀ scope ∈ scopes, ¬ Written calls name scope) ∧
      ((after calls).consume name scopes).1 = .unbound ∨
    ∃ scope, FirstWith (Written calls name) scopes scope ∧
      ((∃ span, Ready calls name scope span ∧
          ((after calls).consume name scopes).1 = .derived span) ∨
        (∀ span, ¬ Ready calls name scope span) ∧
          ((after calls).consume name scopes).1 = .other) := by
  rw [← knows_after]
  simp only [← pending_after_iff]
  rcases consume_cases name scopes (after calls) with ⟨hnone, heq⟩ | ⟨scope, v, hfirst, hv, hcases⟩
  · exact Or.inl ⟨hnone, by rw [heq]⟩
  · refine Or.inr ⟨scope, hfirst, ?_⟩
    rw [hv]
    rcases hcases with ⟨hst, heq⟩ | ⟨hst, heq⟩
    · exact Or.inl ⟨v.span, by rw [← hst], by rw [heq]⟩
    · refine Or.inr ⟨fun span hsame => hst ?_, by rw [heq]⟩
      rw [Option.some.inj hsame]

/-- A read is answered by the first scope written for the name: a condition is handed out exactly if
it is ready there, and never more of them than were recorded. -/
theorem store_refines_history (calls : List Call) (name : String) (scopes : List Span) :
    (((after calls).consume name scopes).1 = .unbound ↔
      ∀ scope ∈ scopes, ¬ Written calls name scope) ∧
    (∀ span, ((after calls).consume name scopes).1 = .derived span ↔
      ∃ scope, FirstWith (Written calls name) scopes scope ∧ Ready calls name scope span) ∧
    (((after calls).consume name scopes).1 = .other ↔
      ∃ scope, FirstWith (Written calls name) scopes scope ∧
        ∀ span, ¬ Ready calls name scope span) ∧
    (resolutions calls empty).countP handsOut ≤ calls.countP Call.isRecord ∧
    ∀ scope, (after calls).contains name scope = true ↔ ∃ span, Ready calls name scope span := by
  have hcount : (resolutions calls empty).countP handsOut ≤ calls.countP Call.isRecord := by
    simpa [pendings, empty] using handsOut_resolutions_le calls empty
  have hcontains : ∀ scope, (after calls).contains name scope = true ↔
      ∃ span, Ready calls name scope span := contains_after_iff calls name
  rcases consume_after_cases calls name scopes with ⟨hnone, hans⟩ | ⟨scope, hfirst, hcases⟩
  · have hno : ∀ s, ¬ FirstWith (Written calls name) scopes s :=
      fun s hs => hnone s hs.mem hs.holds
    refine ⟨⟨fun _ => hnone, fun _ => hans⟩, ?_, ?_, hcount, hcontains⟩
    · intro span
      rw [hans]
      constructor
      · intro h
        cases h
      · rintro ⟨s, hs, -⟩
        exact absurd hs (hno s)
    · rw [hans]
      constructor
      · intro h
        cases h
      · rintro ⟨s, hs, -⟩
        exact absurd hs (hno s)
  have hwritten : ¬ ∀ s ∈ scopes, ¬ Written calls name s :=
    fun h => h scope hfirst.mem hfirst.holds
  rcases hcases with ⟨span, hready, hans⟩ | ⟨hidle, hans⟩
  · rw [hans]
    refine ⟨⟨(fun h => by cases h), fun h => absurd h hwritten⟩, ?_, ?_, hcount, hcontains⟩
    · intro span'
      constructor
      · intro h
        obtain rfl := Resolution.derived.inj h
        exact ⟨scope, hfirst, hready⟩
      · rintro ⟨s, hs, hs'⟩
        obtain rfl := hs.unique hfirst
        rw [hready.unique hs']
    · refine ⟨(fun h => by cases h), ?_⟩
      rintro ⟨s, hs, hs'⟩
      obtain rfl := hs.unique hfirst
      exact absurd hready (hs' span)
  · rw [hans]
    refine ⟨⟨(fun h => by cases h), fun h => absurd h hwritten⟩, ?_, ?_, hcount, hcontains⟩
    · intro span
      refine ⟨(fun h => by cases h), ?_⟩
      rintro ⟨s, hs, hs'⟩
      obtain rfl := hs.unique hfirst
      exact absurd hs' (hidle span)
    · exact ⟨fun _ => ⟨scope, hfirst, hidle⟩, fun _ => rfl⟩

end JsxLint.DerivedStore
