import JsxLint.Proofs.LetterCase
import JsxLint.Rule.EventHandlerNaming

/-! What becomes of a handler name that follows the proposal of `event-handler-naming`. The
proposed name is put together from an opener and the event, and the rule accepts it exactly if the
event has no handler ending left. One ending is taken off a name, so one is left where a name
stacks two of them. -/
namespace JsxLint

namespace Name
open Text

lemma afterCamel?_eq_some_iff {head name rest : String} :
    afterCamel? head name = some rest ↔ name = head ++ rest ∧ startsUppercase rest = true := by
  rw [afterCamel?, Option.filter_eq_some_iff, afterHead?_eq_some_iff]

lemma beforeProper?_eq_some_iff {tail name rest : String} :
    beforeProper? tail name = some rest ↔ name = rest ++ tail ∧ rest ≠ "" := by
  rw [beforeProper?, Option.filter_eq_some_iff, beforeTail?_eq_some_iff, decide_eq_true_eq]

/-- One of the endings stands at the end of the name, after something else. -/
def carriesEnding (endings : List String) (name : String) : Bool :=
  endings.any fun tail => (beforeProper? tail name).isSome

lemma carriesEnding_iff {endings : List String} {name : String} :
    carriesEnding endings name = true ↔
      ∃ tail ∈ endings, ∃ rest, name = rest ++ tail ∧ rest ≠ "" := by
  simp only [carriesEnding, List.any_eq_true, Option.isSome_iff_exists, beforeProper?_eq_some_iff]

lemma withoutEnding_cases (name : String) :
    carriesEnding handlerEndings name = false ∧ withoutEnding name = name ∨
    ∃ tail ∈ handlerEndings, name = withoutEnding name ++ tail ∧ withoutEnding name ≠ "" := by
  rw [withoutEnding]
  cases hfind : handlerEndings.findSome? (beforeProper? · name) with
  | none =>
    refine Or.inl ⟨List.any_eq_false.mpr fun tail htail => ?_, rfl⟩
    simp [List.findSome?_eq_none_iff.mp hfind tail htail]
  | some rest =>
    obtain ⟨tail, htail, hrest⟩ := List.exists_of_findSome?_eq_some hfind
    exact Or.inr ⟨tail, htail, beforeProper?_eq_some_iff.mp hrest⟩

lemma inPresent_cases (name : String) :
    (∀ form ∈ pastEvents, beforeProper? form.1 name = none) ∧ inPresent name = name ∨
    ∃ form ∈ pastEvents, ∃ rest, name = rest ++ form.1 ∧ rest ≠ "" ∧
      inPresent name = rest ++ form.2 := by
  rw [inPresent]
  generalize hfind : pastEvents.findSome? _ = found
  cases found with
  | none =>
    refine Or.inl ⟨fun form hform => ?_, rfl⟩
    exact Option.map_eq_none_iff.mp (List.findSome?_eq_none_iff.mp hfind form hform)
  | some event =>
    obtain ⟨form, hform, hevent⟩ := List.exists_of_findSome?_eq_some hfind
    obtain ⟨rest, hrest, rfl⟩ := Option.map_eq_some_iff.mp hevent
    obtain ⟨hname, hne⟩ := beforeProper?_eq_some_iff.mp hrest
    exact Or.inr ⟨form, hform, rest, hname, hne, rfl⟩

/-- Endings and past forms are taken off after the first letter. -/
lemma head?_event (name : String) :
    (inPresent (withoutEnding name)).toList.head? = name.toList.head? := by
  have hending : (withoutEnding name).toList.head? = name.toList.head? := by
    rcases withoutEnding_cases name with ⟨-, hself⟩ | ⟨tail, -, hname, hne⟩
    · rw [hself]
    · conv_rhs => rw [hname, head?_append hne]
  rw [← hending]
  rcases inPresent_cases (withoutEnding name) with
    ⟨-, hself⟩ | ⟨form, -, rest, hname, hne, hpresent⟩
  · rw [hself]
  · rw [hpresent, hname, head?_append hne, head?_append hne]

lemma length_event_lt {name : String} (h : carriesEnding handlerEndings name = true) :
    (inPresent (withoutEnding name)).length < name.length := by
  have hending : (withoutEnding name).length < name.length := by
    rcases withoutEnding_cases name with ⟨hnone, -⟩ | ⟨tail, htail, hname, -⟩
    · rw [h] at hnone
      cases hnone
    · have hpos : ∀ tail ∈ handlerEndings, 0 < tail.length := by decide
      have htaillen := hpos tail htail
      have hlength := congrArg String.length hname
      rw [String.length_append] at hlength
      omega
  rcases inPresent_cases (withoutEnding name) with
    ⟨-, hself⟩ | ⟨form, hform, rest, hname, -, hpresent⟩
  · rw [hself]
    exact hending
  · have hshorter : ∀ form ∈ pastEvents, form.2.length ≤ form.1.length := by decide
    have hformlen := hshorter form hform
    rw [hname] at hending
    rw [hpresent]
    simp only [String.length_append] at hending ⊢
    omega

lemma event?_eq_some_iff {name event : String} : event? name = some event ↔
    inPresent (withoutEnding (withoutOpener name)) ≠ "" ∧
      capitalize (inPresent (withoutEnding (withoutOpener name))) = event := by
  rw [event?]
  split
  · rename_i hempty
    simp [hempty]
  · rename_i hne
    simp [hne]

example : [event? "handleSaveClicked", event? "onSubmitCallback", event? "Changed", event? ""] =
    [some "SaveClick", some "Submit", some "Changed", none] := by decide

def tellingEndings : List String :=
  ["Handler", "Callback"]

section Opener
variable (role : HandlerRole) (event : String)

lemma afterCamel?_opener (other : HandlerRole) :
    afterCamel? other.opener (role.opener ++ event) =
      if other = role ∧ startsUppercase event = true then some event else none := by
  split
  · rename_i h
    obtain ⟨rfl, hupper⟩ := h
    exact afterCamel?_eq_some_iff.mpr ⟨rfl, hupper⟩
  · rename_i h
    rw [Option.eq_none_iff_forall_ne_some]
    intro rest hrest
    obtain ⟨hsame, hupper⟩ := afterCamel?_eq_some_iff.mp hrest
    have hother : other = role := by
      have hhead := congrArg (fun s => s.toList.head?) hsame
      cases other <;> cases role <;> simp [HandlerRole.opener] at hhead ⊢
    subst hother
    obtain rfl := (String.append_right_inj _).mp hsame
    exact h ⟨rfl, hupper⟩

lemma withoutOpener_opener : withoutOpener (role.opener ++ event) =
    if startsUppercase event = true then event else role.opener ++ event := by
  change ((afterCamel? HandlerRole.internal.opener _).or
    (afterCamel? HandlerRole.prop.opener _)).getD _ = _
  rw [afterCamel?_opener, afterCamel?_opener]
  cases role <;> cases startsUppercase event <;> rfl

lemma isHandlerLike_opener : isHandlerLike (role.opener ++ event) =
    (startsUppercase event || carriesEnding tellingEndings (role.opener ++ event)) := by
  change ((afterCamel? HandlerRole.internal.opener _).isSome ||
    (afterCamel? HandlerRole.prop.opener _).isSome || carriesEnding tellingEndings _) = _
  rw [afterCamel?_opener, afterCamel?_opener]
  cases role <;> cases startsUppercase event <;> rfl

lemma not_isUppercase_opener {c : Char} (h : c ∈ role.opener.toList) : isUppercase c = false := by
  have hall : ∀ role : HandlerRole, role.opener.toList.all (!isUppercase ·) = true := by
    intro role
    cases role <;> decide
  simpa using List.all_eq_true.mp (hall role) c h

/-- An ending of the proposed name does not reach into its opener. -/
lemma carriesEnding_opener (hupper : startsUppercase event = false) :
    carriesEnding tellingEndings (role.opener ++ event) = carriesEnding tellingEndings event := by
  have hcapital : ∀ tail ∈ tellingEndings, startsUppercase tail = true := by decide
  rw [Bool.eq_iff_iff, carriesEnding_iff, carriesEnding_iff]
  constructor
  · rintro ⟨tail, htail, rest, hsame, -⟩
    obtain ⟨middle, hne, -, hevent⟩ :=
      exists_middle (fun _ => not_isUppercase_opener role) hupper (hcapital tail htail) hsame
    exact ⟨tail, htail, middle, hevent, hne⟩
  · rintro ⟨tail, htail, rest, rfl, hne⟩
    refine ⟨tail, htail, role.opener ++ rest, String.append_assoc.symm, ?_⟩
    simp [hne]

end Opener

lemma pastForm_of_capitalize {form : String × String} {name rest : String}
    (hform : form ∈ pastEvents) (h : capitalize name = rest ++ form.1) (hne : rest ≠ "") :
    ∃ front, name = front ++ form.1 ∧ front ≠ "" := by
  rcases ending_of_capitalize h hne with hfront | ⟨c, -, codes, hmem, hlast⟩
  · exact hfront
  · have htable : ∀ e ∈ capitalExpansions, ∀ form ∈ pastEvents,
        (e.2.map Char.ofNat).getLast?.any (form.1.toList.contains ·) = false := by decide +kernel
    rw [htable _ hmem form hform] at hlast
    cases hlast

/-- The one letter with capitals that a handler ending can begin among is the ligature of two f. -/
lemma handlerEnding_of_capitalize {tail name rest : String} (htail : tail ∈ handlerEndings)
    (h : capitalize name = rest ++ tail) (hne : rest ≠ "") :
    (∃ front, name = front ++ tail ∧ front ≠ "") ∨ name.toList.head? = some 'ﬀ' := by
  rcases ending_of_capitalize h hne with hfront | ⟨c, hhead, codes, hmem, hlast⟩
  · exact Or.inl hfront
  · have htable : ∀ e ∈ capitalExpansions, ∀ tail ∈ handlerEndings,
        (e.2.map Char.ofNat).getLast?.any (tail.toList.contains ·) = true →
          e.1 = 'ﬀ'.toNat := by decide +kernel
    have hcode := htable _ hmem tail htail hlast
    rw [hhead, Char.toNat_inj.mp hcode]
    exact Or.inr rfl

lemma suffix_or_suffix_of_append {r s r' s' : String} (h : r ++ s = r' ++ s') :
    s.toList <:+ s'.toList ∨ s'.toList <:+ s.toList := by
  have hlists := congrArg String.toList h
  rw [String.toList_append, String.toList_append] at hlists
  exact List.suffix_or_suffix_of_suffix ⟨_, rfl⟩ ⟨_, hlists.symm⟩

/-- The event is in the present: neither putting it there nor capitalizing it makes a past form. -/
theorem inPresent_of_event? {name event : String} (h : event? name = some event) :
    inPresent event = event := by
  obtain ⟨-, rfl⟩ := event?_eq_some_iff.mp h
  rcases inPresent_cases (capitalize (inPresent (withoutEnding (withoutOpener name)))) with
    ⟨-, hself⟩ | ⟨form, hform, rest, hsame, hne, -⟩
  · exact hself
  obtain ⟨front, hfront, hfrontne⟩ := pastForm_of_capitalize hform hsame hne
  rcases inPresent_cases (withoutEnding (withoutOpener name)) with
    ⟨hnone, hself⟩ | ⟨other, hother, before, -, -, hpresent⟩
  · rw [hself] at hfront
    have hsome := beforeProper?_eq_some_iff.mpr ⟨hfront, hfrontne⟩
    rw [hnone form hform] at hsome
    cases hsome
  · have hclash : ∀ form ∈ pastEvents, ∀ other ∈ pastEvents,
        ¬ (form.1.toList <:+ other.2.toList ∨ other.2.toList <:+ form.1.toList) := by
      decide
    exact absurd (suffix_or_suffix_of_append (hfront.symm.trans hpresent))
      (hclash form hform other hother)

def StacksEndings (name : String) : Prop :=
  ∃ rest inner outer, name = rest ++ inner ++ outer ∧ rest ≠ "" ∧
    inner ∈ handlerEndings ∧ outer ∈ handlerEndings

/-- An event has a handler ending only if it is the inner of two, or if the name begins with the
ligature `ﬀ`, whose second capital begins an ending such as `Fn`. -/
theorem stacksEndings_of_carriesEnding {name event : String} (h : event? name = some event)
    (hcarries : carriesEnding handlerEndings event = true) :
    StacksEndings (withoutOpener name) ∨ (withoutOpener name).toList.head? = some 'ﬀ' := by
  obtain ⟨-, rfl⟩ := event?_eq_some_iff.mp h
  obtain ⟨inner, hinner, rest, hsame, hne⟩ := carriesEnding_iff.mp hcarries
  rcases handlerEnding_of_capitalize hinner hsame hne with ⟨front, hfront, hfrontne⟩ | hligature
  · rcases inPresent_cases (withoutEnding (withoutOpener name)) with
      ⟨-, hself⟩ | ⟨form, hform, before, -, -, hpresent⟩
    · rw [hself] at hfront
      rcases withoutEnding_cases (withoutOpener name) with ⟨hnone, hkept⟩ | ⟨outer, houter, hcut, -⟩
      · rw [hkept] at hfront
        rw [carriesEnding_iff.mpr ⟨inner, hinner, front, hfront, hfrontne⟩] at hnone
        cases hnone
      · rw [hfront] at hcut
        exact Or.inl ⟨front, inner, outer, hcut, hfrontne, hinner, houter⟩
    · have hclash : ∀ form ∈ pastEvents, ∀ inner ∈ handlerEndings,
          ¬ (inner.toList <:+ form.2.toList ∨ form.2.toList <:+ inner.toList) := by
        decide
      exact absurd (suffix_or_suffix_of_append (hfront.symm.trans hpresent))
        (hclash form hform inner hinner)
  · rw [head?_event] at hligature
    exact Or.inr hligature

/-- The outer one of two endings is taken off, and the inner one stays with the event. -/
theorem carriesEnding_of_stacksEndings {name event : String} (h : event? name = some event)
    (hstacks : StacksEndings (withoutOpener name)) : carriesEnding handlerEndings event = true := by
  obtain ⟨rest, inner, outer, hname, hne, hinner, houter⟩ := hstacks
  have hcut : withoutEnding (withoutOpener name) = rest ++ inner := by
    rcases withoutEnding_cases (withoutOpener name) with ⟨hnone, -⟩ | ⟨tail, htail, hsame, -⟩
    · rw [carriesEnding_iff.mpr ⟨outer, houter, _, hname, by simp [hne]⟩] at hnone
      cases hnone
    · have hsingle : ∀ tail ∈ handlerEndings, ∀ outer ∈ handlerEndings,
          tail.toList <:+ outer.toList ∨ outer.toList <:+ tail.toList → tail = outer := by
        decide
      obtain rfl := hsingle tail htail outer houter
        (suffix_or_suffix_of_append (hsame.symm.trans hname))
      exact (String.append_left_inj tail).mp (hsame.symm.trans hname)
  have hpresent : inPresent (rest ++ inner) = rest ++ inner := by
    rcases inPresent_cases (rest ++ inner) with ⟨-, hself⟩ | ⟨form, hform, before, hsame, -, -⟩
    · exact hself
    · have hclash : ∀ form ∈ pastEvents, ∀ inner ∈ handlerEndings,
          ¬ (inner.toList <:+ form.1.toList ∨ form.1.toList <:+ inner.toList) := by
        decide
      exact absurd (suffix_or_suffix_of_append hsame) (hclash form hform inner hinner)
  obtain ⟨-, hevent⟩ := event?_eq_some_iff.mp h
  rw [hcut, hpresent, capitalize_append hne] at hevent
  exact carriesEnding_iff.mpr ⟨inner, hinner, _, hevent.symm, capitalize_ne_empty hne⟩

/-- The event has an ending that its proposed name is reported for. Before an event without a
capital the opener does not count, and the name reads as a handler only by its ending. -/
def keepsEnding (event : String) : Bool :=
  carriesEnding (if startsUppercase event then handlerEndings else tellingEndings) event

lemma carriesEnding_of_keepsEnding {event : String} (h : keepsEnding event = true) :
    carriesEnding handlerEndings event = true := by
  have hsub : ∀ tail ∈ tellingEndings, tail ∈ handlerEndings := by decide
  rw [keepsEnding] at h
  split at h
  · exact h
  · obtain ⟨tail, htail, hrest⟩ := carriesEnding_iff.mp h
    exact carriesEnding_iff.mpr ⟨tail, hsub tail htail, hrest⟩

lemma event?_eq_none_iff {name : String} : event? name = none ↔ name = "" := by
  constructor
  · intro h
    have hevent : inPresent (withoutEnding (withoutOpener name)) = "" := by
      by_contra hne
      simp [event?, hne] at h
    have hempty : withoutOpener name = "" := by
      have hhead := head?_event (withoutOpener name)
      rw [hevent] at hhead
      exact String.toList_eq_nil_iff.mp (List.head?_eq_none_iff.mp hhead.symm)
    rw [withoutOpener] at hempty
    cases hcamel : (afterCamel? "handle" name).or (afterCamel? "on" name) with
    | none => simpa [hcamel] using hempty
    | some rest =>
      obtain rfl : rest = "" := by simpa [hcamel] using hempty
      have hupper : startsUppercase "" = true := by
        rcases Option.or_eq_some_iff.mp hcamel with hhandle | ⟨-, hon⟩
        · exact (afterCamel?_eq_some_iff.mp hhandle).2
        · exact (afterCamel?_eq_some_iff.mp hon).2
      exact absurd hupper (by decide)
  · rintro rfl
    decide

/-- The opener comes off before an event with a capital, and the event is read again. -/
lemma expectedHandler?_opener (role : HandlerRole) {event : String}
    (hupper : startsUppercase event = true) :
    expectedHandler? role (role.opener ++ event) =
      some (role.opener ++ inPresent (withoutEnding event)) := by
  have hread : startsUppercase (inPresent (withoutEnding event)) = true := by
    rw [startsUppercase_congr (head?_event event), hupper]
  have hne : inPresent (withoutEnding event) ≠ "" := by
    intro hempty
    rw [hempty] at hread
    exact absurd hread (by decide)
  rw [expectedHandler?, Option.map_eq_some_iff]
  refine ⟨_, event?_eq_some_iff.mpr ?_, rfl⟩
  rw [withoutOpener_opener, if_pos hupper]
  exact ⟨hne, capitalize_of_startsUppercase hread⟩

/-- An event without a capital is not read again as such: what is read begins with the opener, so
with a capital. -/
lemma expectedHandler?_opener_ne (role : HandlerRole) {event : String}
    (hupper : startsUppercase event = false) :
    expectedHandler? role (role.opener ++ event) ≠ some (role.opener ++ event) := by
  intro h
  obtain ⟨read, hread, hsame⟩ := Option.map_eq_some_iff.mp h
  obtain rfl := (String.append_right_inj _).mp hsame
  obtain ⟨-, hcapitalize⟩ := event?_eq_some_iff.mp hread
  rw [withoutOpener_opener, if_neg (by simp [hupper])] at hcapitalize
  have hhead := head?_event (role.opener ++ read)
  rw [head?_append (by cases role <;> decide)] at hhead
  obtain ⟨c, hc, hcapital⟩ : ∃ c, role.opener.toList.head? = some c ∧ hasCapital c = true := by
    cases role <;> exact ⟨_, rfl, by decide⟩
  rw [hc] at hhead
  obtain ⟨cs, hcs⟩ := List.head?_eq_some_iff.mp hhead
  rw [← hcapitalize, startsUppercase_capitalize hcs, hcapital] at hupper
  cases hupper

/-- The proposed name is not a handler name, or it is the proposal for itself. -/
def HandlerStands (role : HandlerRole) (name : String) : Prop :=
  isHandlerLike name = false ∨ expectedHandler? role name = some name

theorem handlerStands_iff_keepsEnding (role : HandlerRole) {name event : String}
    (h : event? name = some event) :
    HandlerStands role (role.opener ++ event) ↔ keepsEnding event = false := by
  rw [HandlerStands, isHandlerLike_opener, keepsEnding]
  cases hupper : startsUppercase event with
  | true =>
    rw [expectedHandler?_opener role hupper, Option.some.injEq, String.append_right_inj]
    simp only [Bool.true_or, Bool.true_eq_false, false_or, if_true]
    constructor
    · intro hsame
      by_contra hcarries
      have hlt := length_event_lt (Bool.not_eq_false _ ▸ hcarries)
      rw [hsame] at hlt
      exact Nat.lt_irrefl _ hlt
    · intro hnone
      rcases withoutEnding_cases event with ⟨-, hself⟩ | ⟨tail, htail, hcut, hne⟩
      · rw [hself, inPresent_of_event? h]
      · rw [carriesEnding_iff.mpr ⟨tail, htail, _, hcut, hne⟩] at hnone
        cases hnone
  | false =>
    rw [carriesEnding_opener role event hupper]
    simp [expectedHandler?_opener_ne role hupper]

end Name

namespace EventHandlerNaming
open Name Text

lemma isHandlerLike_of_propHandler? {site : Site} {role : HandlerRole} {ident : Ident}
    (h : propHandler? site = some (role, ident)) : isHandlerLike ident.name = true := by
  simp only [propHandler?, Option.bind_eq_bind, Option.bind_eq_some_iff] at h
  obtain ⟨key, -, h⟩ := h
  split at h
  · rename_i hlike
    cases h
    exact (Bool.and_eq_true_iff.mp hlike).2
  · cases h

lemma isHandlerLike_of_declared? {site : Site} {role : HandlerRole} {ident : Ident}
    (h : declared? site = some (role, ident)) : isHandlerLike ident.name = true := by
  unfold declared? at h
  split at h
  · simp only [Option.bind_eq_bind, Option.bind_eq_some_iff] at h
    obtain ⟨declarator, -, bound, -, h⟩ := h
    split at h
    · rename_i hlike
      cases h
      exact (Bool.and_eq_true_iff.mp (Bool.and_eq_true_iff.mp hlike).1).2
    · cases h
  · split at h
    · exact isHandlerLike_of_propHandler? h
    · cases h
  · exact isHandlerLike_of_propHandler? h
  · cases h

lemma report?_eq_none_iff {role : HandlerRole} {ident : Ident} (hne : ident.name ≠ "") :
    report? role ident = none ↔ expectedHandler? role ident.name = some ident.name := by
  cases hexpected : expectedHandler? role ident.name with
  | none => exact absurd (event?_eq_none_iff.mp (Option.map_eq_none_iff.mp hexpected)) hne
  | some expected => simp [report?, hexpected]

/-- The rule is silent about a handler exactly if its name stands. -/
lemma check_eq_nil_iff {site : Site} {role : HandlerRole} {ident : Ident}
    (h : declared? site = some (role, ident)) :
    check site = [] ↔ HandlerStands role ident.name := by
  have hlike := isHandlerLike_of_declared? h
  have hne : ident.name ≠ "" := by
    intro hempty
    rw [hempty] at hlike
    exact absurd hlike (by decide)
  rw [check, h, Option.bind_some, Option.toList_eq_nil_iff, report?_eq_none_iff hne, HandlerStands,
    hlike]
  simp

/-- The proposed name is accepted exactly if the event keeps no handler ending, and one is kept only
where two endings are stacked or the name begins with the ligature `ﬀ`. -/
theorem suggestion_accepted_iff_keepsEnding (role : HandlerRole) (name expected : String)
    (h : expectedHandler? role name = some expected) :
    ∃ event, event? name = some event ∧ expected = role.opener ++ event ∧
      (isHandlerLike expected = false ∨ expectedHandler? role expected = some expected ↔
        keepsEnding event = false) ∧
      (∀ site span, declared? site = some (role, ⟨expected, span⟩) →
        (check site = [] ↔ keepsEnding event = false)) ∧
      (keepsEnding event = true →
        StacksEndings (withoutOpener name) ∨ (withoutOpener name).toList.head? = some 'ﬀ') ∧
      (startsUppercase event = true → StacksEndings (withoutOpener name) →
        keepsEnding event = true) := by
  obtain ⟨event, hevent, rfl⟩ := Option.map_eq_some_iff.mp h
  have hstands := handlerStands_iff_keepsEnding role hevent
  refine ⟨event, hevent, rfl, hstands, fun site span hsite => ?_, fun hkeeps => ?_,
    fun hupper hstacks => ?_⟩
  · exact (check_eq_nil_iff hsite).trans hstands
  · exact stacksEndings_of_carriesEnding hevent (carriesEnding_of_keepsEnding hkeeps)
  · rw [keepsEnding, if_pos hupper]
    exact carriesEnding_of_stacksEndings hevent hstacks

theorem suggestion_accepted_iff_keepsEnding_stacked :
    isHandlerLike "clickHandlerHandler" = true ∧
      expectedHandler? .internal "clickHandlerHandler" = some "handleClickHandler" ∧
      ¬ (isHandlerLike "handleClickHandler" = false ∨
        expectedHandler? .internal "handleClickHandler" = some "handleClickHandler") := by
  have hexpected :
      expectedHandler? .internal "clickHandlerHandler" = some "handleClickHandler" := by
    decide
  obtain ⟨event, -, hsame, hstands, -⟩ :=
    suggestion_accepted_iff_keepsEnding .internal _ _ hexpected
  obtain rfl : "ClickHandler" = event := (String.append_right_inj "handle").mp hsame
  refine ⟨by decide, hexpected, fun haccepted => ?_⟩
  exact absurd (hstands.mp haccepted) (by decide)

end EventHandlerNaming

end JsxLint
