import JsxLint.Diagnostic.Basic
import Mathlib.Data.List.Nodup

/-! The message of a diagnostic is its template with its data filled in, in whatever steps the
diagnostic is put together. Its data lists each key once, in the order in which the keys were first
given, with the value that was given last. -/
namespace JsxLint

namespace Template

lemma filled_nil (piece : Piece) : piece.filled [] = piece.written := by
  cases piece <;> rfl

/-- Without data a template stays as it is, whatever braces it has. -/
theorem render_nil (template : String) : render template [] = template := by
  have hpieces : (pieces template).flatMap (·.filled []) = template.toList := by
    simp only [filled_nil]
    exact flatMap_written_pieces template
  rw [render, hpieces, String.ofList_toList]

end Template

namespace Data

lemma get?_cons (key value other : String) (data : Data) :
    get? other ((key, value) :: data) = if other = key then some value else data.get? other := by
  by_cases h : other = key
  · simp [get?, h]
  · simp [get?, List.lookup_cons, beq_eq_false_iff_ne.mpr h, h]

/-- Giving a value changes the value of one key. -/
lemma get?_insert (key value other : String) (data : Data) :
    (data.insert key value).get? other = if other = key then some value else data.get? other := by
  induction data with
  | nil => exact get?_cons key value other []
  | cons entry rest ih =>
    obtain ⟨k, v⟩ := entry
    by_cases hk : k = key
    · subst hk
      rw [insert, if_pos rfl, get?_cons, get?_cons]
      split <;> rfl
    · rw [insert, if_neg hk, get?_cons, get?_cons, ih]
      by_cases hother : other = k
      · have hne : ¬ other = key := fun h => hk (hother.symm.trans h)
        rw [if_pos hother, if_neg hne, if_pos hother]
      · rw [if_neg hother, if_neg hother]

/-- A key that is given a value keeps its place or comes last. -/
lemma nodup_keys_insert {key value : String} {data : Data} (h : (data.map Prod.fst).Nodup) :
    ((data.insert key value).map Prod.fst).Nodup := by
  rw [keys_insert]
  split
  · exact h
  · rename_i hnew
    simpa using List.Nodup.concat hnew h

end Data

lemma eraseDups_concat (keys : List String) (key : String) :
    (keys ++ [key]).eraseDups =
      if key ∈ keys then keys.eraseDups else keys.eraseDups ++ [key] := by
  rw [List.eraseDups_append]
  by_cases h : key ∈ keys <;> simp [List.removeAll, h, List.eraseDups_cons]

namespace Diagnostic

inductive Step
  | data (key value : String)
  | help (text : String)
  | severity (level : Severity)
  | fix (replacement : Fix)

def Step.run : Step → Diagnostic → Diagnostic
  | data key value, d => d.withData key value
  | help text, d => d.withHelp text
  | severity level, d => d.withSeverity level
  | fix replacement, d => d.withFix replacement

def after (d : Diagnostic) (steps : List Step) : Diagnostic :=
  steps.foldl (fun d step => step.run d) d

def Step.entry? : Step → Option (String × String)
  | data key value => some (key, value)
  | _ => none

def given (steps : List Step) : List (String × String) :=
  steps.filterMap Step.entry?

/-- The diagnostic shows its template with the values that the steps gave. The keys stand in the
order in which they were first given, each with the value given last. -/
structure Shows (template : String) (steps : List Step) (d : Diagnostic) : Prop where
  template_eq : d.template = template
  message_eq : d.message = Template.render template d.data
  keys : d.data.map Prod.fst = ((given steps).map Prod.fst).eraseDups
  once : (d.data.map Prod.fst).Nodup
  last : ∀ key, d.data.get? key = Data.get? key (given steps).reverse

lemma shows_ofTemplate (rule : String) (span : Span) (template : String) :
    (ofTemplate rule span template).Shows template [] where
  template_eq := rfl
  message_eq := (Template.render_nil template).symm
  keys := rfl
  once := List.nodup_nil
  last _ := rfl

namespace Shows
variable {template : String} {steps : List Step} {d : Diagnostic}

/-- What is shown depends on the template, the message and the data alone. -/
lemma congr {d' : Diagnostic} {steps' : List Step} (h : d.Shows template steps)
    (hgiven : given steps' = given steps) (htemplate : d'.template = d.template)
    (hmessage : d'.message = d.message) (hdata : d'.data = d.data) :
    d'.Shows template steps' where
  template_eq := htemplate.trans h.template_eq
  message_eq := by rw [hmessage, hdata, h.message_eq]
  keys := by rw [hdata, hgiven, h.keys]
  once := by rw [hdata]; exact h.once
  last key := by rw [hdata, hgiven, h.last]

lemma withData (h : d.Shows template steps) (key value : String) :
    (d.withData key value).Shows template (steps ++ [.data key value]) := by
  have hgiven : given (steps ++ [.data key value]) = given steps ++ [(key, value)] :=
    List.filterMap_append
  have hkeys : (d.data.insert key value).map Prod.fst =
      ((given steps ++ [(key, value)]).map Prod.fst).eraseDups := by
    rw [Data.keys_insert, List.map_append, List.map_singleton, eraseDups_concat, h.keys]
    simp only [List.mem_eraseDups]
  refine ⟨h.template_eq, ?_, ?_, Data.nodup_keys_insert h.once, fun other => ?_⟩
  · rw [Diagnostic.withData, h.template_eq]
  · rw [hgiven]
    exact hkeys
  · rw [hgiven, List.reverse_append, List.reverse_singleton, List.singleton_append,
      Data.get?_cons, ← h.last]
    exact Data.get?_insert key value other d.data

/-- Every step keeps a diagnostic in agreement with the steps so far. -/
lemma step (h : d.Shows template steps) (next : Step) :
    (next.run d).Shows template (steps ++ [next]) := by
  cases next with
  | data key value => exact h.withData key value
  | help text => exact h.congr (by simp [given, Step.entry?]) rfl rfl rfl
  | severity level => exact h.congr (by simp [given, Step.entry?]) rfl rfl rfl
  | fix replacement => exact h.congr (by simp [given, Step.entry?]) rfl rfl rfl

lemma after (h : d.Shows template steps) (more : List Step) :
    (d.after more).Shows template (steps ++ more) := by
  induction more generalizing d steps with
  | nil => rwa [List.append_nil]
  | cons next more ih =>
    have hnext := ih (h.step next)
    rwa [List.append_assoc, List.singleton_append] at hnext

end Shows

/-- However a diagnostic is put together from a template, its message is the template with the
values given so far filled in. -/
theorem shows_after_any_steps (rule : String) (span : Span) (template : String)
    (steps : List Step) :
    ((ofTemplate rule span template).after steps).Shows template steps ∧
      ((warning rule span template).after steps).Shows template steps ∧
      Template.render template [] = template := by
  have hstart := shows_ofTemplate rule span template
  have hwarning : (warning rule span template).Shows template [] :=
    hstart.congr rfl rfl rfl rfl
  exact ⟨hstart.after steps, hwarning.after steps, Template.render_nil template⟩

end Diagnostic

end JsxLint
