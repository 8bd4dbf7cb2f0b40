import JsxLint.Config
import JsxLint.Proofs.KeyOrder
import Mathlib.Data.List.Forall2
import Mathlib.Data.List.Nodup

/-! A configuration object says exactly which rules run and with which options. There is one
relation between the values that a rule takes and what they set the rule to, for all rules. An
object is accepted if each of its entries names a rule and sets it; otherwise the first entry in
the order of the keys that does not decides the error. -/
namespace JsxLint

def Json.ofTexts (words : List String) : Json :=
  .array (words.map .text)

def RuleId.optionFields : RuleId → List (String × List String)
  | .booleanNaming => [("allowedPrefixes", ["is"]), ("schemaMethods", ["pick", "omit"])]
  | .noInlineStyles => [("attributes", ["style"])]
  | _ => []

namespace Config

/-- The words that an object gives for an option field: those of its entry, which must be a list of
strings, or the default if it has none. -/
inductive Takes (entries : Json.Entries) (field : String × List String) : List String → Prop
  | given {words : List String} (mem : (field.1, Json.ofTexts words) ∈ entries) :
    Takes entries field words
  | missing (notMem : ∀ value, (field.1, value) ∉ entries) : Takes entries field field.2

/-- What a value sets a rule to: off, or on with the words for its option fields. A value that sets
a rule to nothing has the wrong shape for it. -/
inductive Sets (rule : RuleId) : Json → Option (List (List String)) → Prop
  | off : Sets rule (.boolean false) none
  | on : Sets rule (.boolean true) (some (rule.optionFields.map Prod.snd))
  /-- The fields by name. Entries that are no fields are ignored. -/
  | named {entries : Json.Entries} {options : List (List String)}
    (takes : List.Forall₂ (Takes entries) rule.optionFields options) :
    Sets rule (.object entries) (some options)
  /-- The fields by position, for a rule that has any; the last ones may be missing. -/
  | positional (given : List (List String)) (hasFields : rule.optionFields ≠ [])
    (fit : given.length ≤ rule.optionFields.length) :
    Sets rule (.array (given.map .ofTexts))
      (some (given ++ (rule.optionFields.drop given.length).map Prod.snd))

def options? (c : Config) : RuleId → Option (List (List String))
  | .booleanNaming => c.booleanNaming.map fun o => [o.allowedPrefixes, o.schemaMethods]
  | .derivedConditionalNaming => if c.derivedConditionalNaming then some [] else none
  | .eventHandlerNaming => if c.eventHandlerNaming then some [] else none
  | .jsxStringBraces => if c.jsxStringBraces then some [] else none
  | .noComplexJsxConditions => if c.noComplexJsxConditions then some [] else none
  | .noInlineStyles => c.noInlineStyles.map fun o => [o.attributes]
  | .propInterfaceNaming => if c.propInterfaceNaming then some [] else none

def Accepted (entry : String × Json) : Prop :=
  ∃ rule : RuleId, rule.name = entry.1 ∧ ∃ options, Sets rule entry.2 options

inductive Offends (entry : String × Json) : ConfigError → Prop
  | unknown (name : ∀ rule : RuleId, rule.name ≠ entry.1) : Offends entry (.unknownRule entry.1)
  | shape {rule : RuleId} (name : rule.name = entry.1)
    (refused : ∀ options, ¬ Sets rule entry.2 options) : Offends entry .setting

lemma enables_eq_isSome (c : Config) (rule : RuleId) :
    c.enables rule = (c.options? rule).isSome := by
  cases rule with
  | booleanNaming | noInlineStyles => simp [enables, options?]
  | derivedConditionalNaming | eventHandlerNaming | jsxStringBraces | noComplexJsxConditions
  | propInterfaceNaming => simp only [enables, options?]; split <;> simp_all

lemma text?_eq_some_iff {value : Json} {word : String} :
    value.text? = some word ↔ value = .text word := by
  cases value <;> simp [Json.text?]

lemma mapM_text?_eq_some_iff {items : List Json} {words : List String} :
    items.mapM Json.text? = some words ↔ items = words.map .text := by
  induction items generalizing words with
  | nil => cases words <;> simp
  | cons item items ih =>
    cases words <;> simp [Option.bind_eq_some_iff, text?_eq_some_iff, ih]

lemma texts?_eq_some_iff {value : Json} {words : List String} :
    value.texts? = some words ↔ value = .ofTexts words := by
  cases value <;> simp [Json.texts?, Json.ofTexts, mapM_text?_eq_some_iff]

lemma get?_eq_none_iff {entries : Json.Entries} {key : String} :
    entries.get? key = none ↔ ∀ value, (key, value) ∉ entries := by
  rw [Json.Entries.get?, List.lookup_eq_none_iff]
  constructor
  · intro hkeys value hmem
    exact absurd rfl (bne_iff_ne.mp (hkeys _ hmem))
  · rintro hnone ⟨k, value⟩ hmem
    refine bne_iff_ne.mpr ?_
    rintro rfl
    exact hnone value hmem

lemma nodup_keys {entries : Json.Entries} (h : entries.Ascending) :
    (entries.map Prod.fst).Nodup := by
  refine List.pairwise_map.mpr (h.imp ?_)
  intro a b hlt heq
  rw [heq] at hlt
  exact List.lt_irrefl _ hlt

lemma eq_of_mem {entries : Json.Entries} (h : entries.Ascending) {key : String}
    {value value' : Json} (hmem : (key, value) ∈ entries) (hmem' : (key, value') ∈ entries) :
    value = value' :=
  congrArg Prod.snd (List.inj_on_of_nodup_map (nodup_keys h) hmem hmem' rfl)

lemma get?_eq_some_iff {entries : Json.Entries} (h : entries.Ascending) {key : String}
    {value : Json} : entries.get? key = some value ↔ (key, value) ∈ entries := by
  have hmem : ∀ {value}, entries.get? key = some value → (key, value) ∈ entries := by
    intro value hvalue
    obtain ⟨before, after, rfl, -⟩ := List.lookup_eq_some_iff.mp hvalue
    simp
  constructor
  · exact hmem
  · intro hvalue
    cases hget : entries.get? key with
    | none => exact absurd hvalue (get?_eq_none_iff.mp hget value)
    | some value' => rw [eq_of_mem h (hmem hget) hvalue]

lemma field?_eq_some_iff {entries : Json.Entries} (h : entries.Ascending)
    {field : String × List String} {words : List String} :
    field? entries field.1 field.2 = some words ↔ Takes entries field words := by
  unfold field?
  constructor
  · intro hwords
    split at hwords
    · rename_i value hvalue
      rw [texts?_eq_some_iff] at hwords
      subst hwords
      exact .given ((get?_eq_some_iff h).mp hvalue)
    · rename_i hnone
      cases hwords
      exact .missing (get?_eq_none_iff.mp hnone)
  · intro htakes
    cases htakes with
    | given mem => rw [(get?_eq_some_iff h).mpr mem]; exact texts?_eq_some_iff.mpr rfl
    | missing notMem => rw [get?_eq_none_iff.mpr notMem]

def positions? : List (String × List String) → List Json → Option (List (List String))
  | fields, [] => some (fields.map Prod.snd)
  | [], _ :: _ => none
  | _ :: fields, item :: items => do return (← item.texts?) :: (← positions? fields items)

def words? (fields : List (String × List String)) : Json → Option (List (List String))
  | .object entries => fields.mapM fun field => field? entries field.1 field.2
  | .array items => if fields = [] then none else positions? fields items
  | _ => none

lemma mapM_field?_eq_some_iff {entries : Json.Entries} (h : entries.Ascending)
    {fields : List (String × List String)} {options : List (List String)} :
    fields.mapM (fun field => field? entries field.1 field.2) = some options ↔
      List.Forall₂ (Takes entries) fields options := by
  induction fields generalizing options with
  | nil => cases options <;> simp
  | cons field fields ih =>
    cases options <;> simp [Option.bind_eq_some_iff, field?_eq_some_iff h, ih]

lemma positions?_eq_some_iff {fields : List (String × List String)} {items : List Json}
    {options : List (List String)} : positions? fields items = some options ↔
      ∃ given : List (List String), given.map .ofTexts = items ∧ given.length ≤ fields.length ∧
        options = given ++ (fields.drop given.length).map Prod.snd := by
  fun_induction positions? fields items generalizing options with
  | case1 fields => simp [eq_comm]
  | case2 item items =>
    constructor
    · intro h
      cases h
    · rintro ⟨given, hitems, hfit, -⟩
      obtain rfl := List.length_eq_zero_iff.mp (Nat.le_zero.mp hfit)
      cases hitems
  | case3 field fields item items ih =>
    simp only [Option.bind_eq_bind, Option.bind_eq_some_iff, texts?_eq_some_iff, ih]
    constructor
    · rintro ⟨words, rfl, rest, ⟨given, rfl, hfit, rfl⟩, hoptions⟩
      cases hoptions
      exact ⟨words :: given, by simp, by simpa using hfit, by simp⟩
    · rintro ⟨_ | ⟨words, given⟩, hitems, hfit, rfl⟩
      · cases hitems
      · obtain ⟨rfl, rfl⟩ := List.cons.inj hitems
        exact ⟨words, rfl, _, ⟨given, rfl, by simpa using hfit, rfl⟩, by simp⟩

/-- A value that is no switch sets a rule to the words that it has for the fields, if it has the
right shape, and never turns the rule off. -/
theorem sets_iff_words? {rule : RuleId} {value : Json} (hvalue : value.Ordered)
    (hswitch : ∀ on, value ≠ .boolean on) {outcome : Option (List (List String))} :
    Sets rule value outcome ↔
      ∃ options, words? rule.optionFields value = some options ∧ outcome = some options := by
  constructor
  · intro h
    cases h with
    | off => exact absurd rfl (hswitch false)
    | on => exact absurd rfl (hswitch true)
    | named takes =>
      cases hvalue with
      | object ascending inner => exact ⟨_, (mapM_field?_eq_some_iff ascending).mpr takes, rfl⟩
    | positional given hasFields fit =>
      refine ⟨_, ?_, rfl⟩
      rw [words?, if_neg hasFields]
      exact positions?_eq_some_iff.mpr ⟨given, rfl, fit, rfl⟩
  · rintro ⟨options, hwords, rfl⟩
    cases hvalue with
    | object ascending inner => exact .named ((mapM_field?_eq_some_iff ascending).mp hwords)
    | array inner =>
      rw [words?] at hwords
      split at hwords
      · cases hwords
      · rename_i hasFields
        obtain ⟨given, rfl, fit, rfl⟩ := positions?_eq_some_iff.mp hwords
        exact .positional given hasFields fit
    | _ => cases hwords

lemma switch_or_not (value : Json) :
    (∃ on, value = .boolean on) ∨ ∀ on, value ≠ .boolean on := by
  cases value with
  | boolean on => exact Or.inl ⟨on, rfl⟩
  | _ => exact Or.inr nofun

lemma Sets.unique {rule : RuleId} {value : Json} (hvalue : value.Ordered)
    {outcome outcome' : Option (List (List String))} (h : Sets rule value outcome)
    (h' : Sets rule value outcome') : outcome = outcome' := by
  rcases switch_or_not value with ⟨on, rfl⟩ | hswitch
  · cases h <;> cases h' <;> rfl
  · obtain ⟨options, hwords, rfl⟩ := (sets_iff_words? hvalue hswitch).mp h
    obtain ⟨options', hwords', rfl⟩ := (sets_iff_words? hvalue hswitch).mp h'
    exact hwords.symm.trans hwords'

lemma map_booleanNamingOptions? (value : Json) :
    (booleanNamingOptions? value).map (fun o => [o.allowedPrefixes, o.schemaMethods]) =
      words? RuleId.booleanNaming.optionFields value := by
  cases value with
  | object entries =>
    simp only [booleanNamingOptions?, words?, RuleId.optionFields, List.mapM_cons, List.mapM_nil]
    cases field? entries "allowedPrefixes" ["is"] <;>
      cases field? entries "schemaMethods" ["pick", "omit"] <;> rfl
  | array items =>
    simp only [booleanNamingOptions?, words?, RuleId.optionFields, position?]
    rcases items with _ | ⟨first, _ | ⟨second, _ | ⟨third, rest⟩⟩⟩
    · rfl
    · cases h : first.texts? <;> simp [positions?, h]
    · cases h : first.texts? <;> cases h' : second.texts? <;> simp [positions?, h, h']
    · simp [positions?]
  | _ => rfl

lemma map_noInlineStylesOptions? (value : Json) :
    (noInlineStylesOptions? value).map (fun o => [o.attributes]) =
      words? RuleId.noInlineStyles.optionFields value := by
  cases value with
  | object entries =>
    simp only [noInlineStylesOptions?, words?, RuleId.optionFields, List.mapM_cons, List.mapM_nil]
    cases field? entries "attributes" ["style"] <;> rfl
  | array items =>
    simp only [noInlineStylesOptions?, words?, RuleId.optionFields, position?]
    rcases items with _ | ⟨first, _ | ⟨second, rest⟩⟩
    · rfl
    · cases h : first.texts? <;> simp [positions?, h]
    · simp [positions?]
  | _ => rfl

/-- The second configuration is the first one with one rule set anew. -/
def SetsOnly (rule : RuleId) (value : Json) (c c' : Config) : Prop :=
  Sets rule value (c'.options? rule) ∧ ∀ other, other ≠ rule → c'.options? other = c.options? other

lemma configure?_switch (c : Config) (rule : RuleId) (on : Bool) :
    SetsOnly rule (.boolean on) c (c.set rule on) := by
  constructor
  · cases on <;> cases rule <;> constructor
  · intro other hne
    cases rule <;> cases other <;> first | rfl | exact absurd rfl hne

/-- A rule whose options are decoded: they are put in place, or the value has the wrong shape. -/
lemma configure?_cases_of_decode {α : Type} {c : Config} {rule : RuleId} {value : Json}
    (hvalue : value.Ordered) (hswitch : ∀ on, value ≠ .boolean on) {decoded : Option α}
    {put : α → Config} {words : α → List (List String)}
    (hconfigure : c.configure? rule value = decoded.map put)
    (hwords : decoded.map words = words? rule.optionFields value)
    (hput : ∀ o, decoded = some o → (put o).options? rule = some (words o))
    (hother : ∀ o other, other ≠ rule → (put o).options? other = c.options? other) :
    (∃ c', c.configure? rule value = some c' ∧ SetsOnly rule value c c') ∨
      c.configure? rule value = none ∧ ∀ outcome, ¬ Sets rule value outcome := by
  cases decoded with
  | none =>
    refine Or.inr ⟨hconfigure, ?_⟩
    intro outcome hsets
    obtain ⟨options, hoptions, -⟩ := (sets_iff_words? hvalue hswitch).mp hsets
    rw [← hwords] at hoptions
    cases hoptions
  | some o =>
    refine Or.inl ⟨put o, hconfigure, ?_, hother o⟩
    exact (sets_iff_words? hvalue hswitch).mpr ⟨words o, hwords.symm, hput o rfl⟩

lemma configure?_booleanNaming (c : Config) {value : Json} (hswitch : ∀ on, value ≠ .boolean on) :
    c.configure? .booleanNaming value =
      (booleanNamingOptions? value).map fun o => { c with booleanNaming := some o } := by
  cases value with
  | boolean on => exact absurd rfl (hswitch on)
  | _ => rfl

lemma configure?_noInlineStyles (c : Config) {value : Json}
    (hswitch : ∀ on, value ≠ .boolean on) :
    c.configure? .noInlineStyles value =
      (noInlineStylesOptions? value).map fun o => { c with noInlineStyles := some o } := by
  cases value with
  | boolean on => exact absurd rfl (hswitch on)
  | _ => rfl

/-- A rule without options takes any object and ignores what is in it. -/
lemma configure?_plain (c : Config) {rule : RuleId} (hplain : rule.optionFields = []) {value : Json}
    (hswitch : ∀ on, value ≠ .boolean on) :
    c.configure? rule value = (words? rule.optionFields value).map fun _ => c.set rule true := by
  rw [hplain]
  cases value with
  | boolean on => exact absurd rfl (hswitch on)
  | _ => cases rule <;> first | rfl | cases hplain

lemma options?_set_plain (c : Config) {rule : RuleId} (hplain : rule.optionFields = [])
    {value : Json} {options : List (List String)}
    (hwords : words? rule.optionFields value = some options) :
    (c.set rule true).options? rule = some options := by
  rw [hplain] at hwords
  cases value with
  | object entries =>
    cases hwords
    cases rule <;> first | rfl | cases hplain
  | _ => cases hwords

/-- A value sets its rule and no other, or has the wrong shape for the rule. -/
theorem configure?_cases (c : Config) (rule : RuleId) {value : Json} (hvalue : value.Ordered) :
    (∃ c', c.configure? rule value = some c' ∧ SetsOnly rule value c c') ∨
      c.configure? rule value = none ∧ ∀ outcome, ¬ Sets rule value outcome := by
  rcases switch_or_not value with ⟨on, rfl⟩ | hswitch
  · exact Or.inl ⟨c.set rule on, rfl, configure?_switch c rule on⟩
  · by_cases hplain : rule.optionFields = []
    · exact configure?_cases_of_decode hvalue hswitch (configure?_plain c hplain hswitch)
        Option.map_id' (fun _ => options?_set_plain c hplain)
        fun _ => (configure?_switch c rule true).2
    · cases rule <;> try exact absurd rfl hplain
      case booleanNaming =>
        refine configure?_cases_of_decode hvalue hswitch (configure?_booleanNaming c hswitch)
          (map_booleanNamingOptions? value) (fun _ _ => rfl) ?_
        intro o other hne
        cases other <;> first | rfl | exact absurd rfl hne
      case noInlineStyles =>
        refine configure?_cases_of_decode hvalue hswitch (configure?_noInlineStyles c hswitch)
          (map_noInlineStylesOptions? value) (fun _ _ => rfl) ?_
        intro o other hne
        cases other <;> first | rfl | exact absurd rfl hne

/-- An entry sets the rule that it names and no other, or is at fault. -/
theorem addEntry_cases (c : Config) {entry : String × Json} (hvalue : entry.2.Ordered) :
    (∃ rule c', c.addEntry entry = .ok c' ∧ rule.name = entry.1 ∧ SetsOnly rule entry.2 c c') ∨
      ∃ error, c.addEntry entry = .error error ∧ Offends entry error := by
  cases hname : RuleId.ofName? entry.1 with
  | none =>
    refine Or.inr ⟨.unknownRule entry.1, ?_, .unknown (RuleId.ofName?_eq_none_iff.mp hname)⟩
    simp only [addEntry, hname]
  | some rule =>
    have hrule : rule.name = entry.1 := RuleId.ofName?_eq_some_iff.mp hname
    rcases configure?_cases c rule hvalue with ⟨c', hc', hsets⟩ | ⟨hnone, hrefused⟩
    · refine Or.inl ⟨rule, c', ?_, hrule, hsets⟩
      simp only [addEntry, hname, hc']
    · refine Or.inr ⟨.setting, ?_, .shape hrule hrefused⟩
      simp only [addEntry, hname, hnone]

lemma Offends.not_accepted {entry : String × Json} {error : ConfigError} (h : Offends entry error) :
    ¬ Accepted entry := by
  rintro ⟨rule, hname, options, hsets⟩
  cases h with
  | unknown name => exact name rule hname
  | shape name refused =>
    obtain rfl := RuleId.name_injective (hname.trans name.symm)
    exact refused options hsets

lemma Offends.unique {entry : String × Json} {error error' : ConfigError}
    (h : Offends entry error) (h' : Offends entry error') : error = error' := by
  cases h with
  | unknown name =>
    cases h' with
    | unknown => rfl
    | shape name' => exact absurd name' (name _)
  | shape name =>
    cases h' with
    | unknown name' => exact absurd name (name' _)
    | shape => rfl

/-- The error is that of the entry at fault whose key comes first in the order of bytes. -/
def FirstOffence (entries : Json.Entries) (error : ConfigError) : Prop :=
  ∃ entry ∈ entries, Offends entry error ∧
    ∀ other ∈ entries, Text.bytes other.1 < Text.bytes entry.1 → Accepted other

lemma FirstOffence.unique {entries : Json.Entries} (hascending : entries.Ascending)
    {error error' : ConfigError} (h : FirstOffence entries error)
    (h' : FirstOffence entries error') : error = error' := by
  obtain ⟨⟨key, value⟩, hmem, hoffends, hbefore⟩ := h
  obtain ⟨⟨key', value'⟩, hmem', hoffends', hbefore'⟩ := h'
  rcases lt_trichotomy key key' with hlt | rfl | hgt
  · exact absurd (hbefore' _ hmem (Text.bytes_lt_bytes_iff.mpr hlt)) hoffends.not_accepted
  · obtain rfl := eq_of_mem hascending hmem hmem'
    exact hoffends.unique hoffends'
  · exact absurd (hbefore _ hmem' (Text.bytes_lt_bytes_iff.mpr hgt)) hoffends'.not_accepted

/-- The second configuration is the first one with each rule set anew that an entry names. -/
structure TakesOver (entries : Json.Entries) (c c' : Config) : Prop where
  sets : ∀ {rule value}, (RuleId.name rule, value) ∈ entries → Sets rule value (c'.options? rule)
  keeps : ∀ {rule}, (∀ value, (RuleId.name rule, value) ∉ entries) →
    c'.options? rule = c.options? rule

lemma TakesOver.cons {rule : RuleId} {value : Json} {entries : Json.Entries} {c c₁ c' : Config}
    (hfresh : ∀ value, (rule.name, value) ∉ entries) (hfirst : SetsOnly rule value c c₁)
    (hrest : TakesOver entries c₁ c') : TakesOver ((rule.name, value) :: entries) c c' := by
  obtain ⟨hsets, hkeeps⟩ := hfirst
  constructor
  · intro other value' hmem
    rcases List.mem_cons.mp hmem with heq | hmem
    · obtain ⟨hname, rfl⟩ := Prod.mk.inj heq
      obtain rfl := RuleId.name_injective hname
      rw [hrest.keeps hfresh]
      exact hsets
    · exact hrest.sets hmem
  · intro other hnone
    have hne : other ≠ rule := by
      rintro rfl
      exact hnone value List.mem_cons_self
    rw [hrest.keeps fun value' hmem => hnone value' (List.mem_cons_of_mem _ hmem)]
    exact hkeeps other hne

/-- Entries are taken over one after the other, up to the first one that is at fault. -/
theorem foldlM_addEntry_cases {entries : Json.Entries} (hordered : (Json.object entries).Ordered)
    (c : Config) :
    (∃ c', entries.foldlM addEntry c = .ok c' ∧ (∀ entry ∈ entries, Accepted entry) ∧
        TakesOver entries c c') ∨
      ∃ error, entries.foldlM addEntry c = .error error ∧ FirstOffence entries error := by
  obtain ⟨hascending, hinner⟩ := Json.ordered_object_iff.mp hordered
  clear hordered
  induction entries generalizing c with
  | nil => exact Or.inl ⟨c, rfl, by simp, by simp, fun _ => rfl⟩
  | cons entry entries ih =>
    obtain ⟨key, value⟩ := entry
    obtain ⟨hlt, hrestAscending⟩ := List.pairwise_cons.mp hascending
    obtain ⟨hvalue, hrestInner⟩ := List.forall_mem_cons.mp hinner
    rw [List.foldlM_cons]
    rcases c.addEntry_cases hvalue with ⟨rule, c₁, hc₁, rfl, hfirst⟩ | ⟨error, herror, hoffends⟩
    · have haccepted : Accepted (rule.name, value) := ⟨rule, rfl, _, hfirst.1⟩
      rw [hc₁]
      rcases ih c₁ hrestAscending hrestInner with
        ⟨c', hc', hall, hrest⟩ | ⟨error, herror, entry, hmem, hoffends, hbefore⟩
      · refine Or.inl ⟨c', hc', List.forall_mem_cons.mpr ⟨haccepted, hall⟩, hrest.cons ?_ hfirst⟩
        intro value' hmem
        exact List.lt_irrefl _ (hlt (rule.name, value') hmem)
      · refine Or.inr ⟨error, herror, entry, List.mem_cons_of_mem _ hmem, hoffends, ?_⟩
        exact List.forall_mem_cons.mpr ⟨fun _ => haccepted, hbefore⟩
    · rw [herror]
      refine Or.inr ⟨error, rfl, (key, value), List.mem_cons_self, hoffends, ?_⟩
      refine List.forall_mem_cons.mpr ⟨fun h => absurd h (List.lt_irrefl _), ?_⟩
      intro other hmem h
      exact absurd h (List.lt_asymm (hlt other hmem))

/-- Only `false` turns a rule off. -/
lemma Sets.isSome_iff {rule : RuleId} {value : Json} {outcome : Option (List (List String))}
    (h : Sets rule value outcome) : outcome.isSome = true ↔ value ≠ .boolean false := by
  cases h <;> simp

lemma options?_allOff (rule : RuleId) : allOff.options? rule = none := by
  cases rule <;> rfl

/-- A rule is on if the object has its name with anything but `false`. -/
lemma TakesOver.enables_iff {entries : Json.Entries} {c : Config} (h : TakesOver entries allOff c)
    (rule : RuleId) :
    c.enables rule = true ↔ ∃ value, (rule.name, value) ∈ entries ∧ value ≠ .boolean false := by
  rw [enables_eq_isSome]
  constructor
  · intro hon
    by_contra hnone
    by_cases hnamed : ∃ value, (rule.name, value) ∈ entries
    · obtain ⟨value, hmem⟩ := hnamed
      exact hnone ⟨value, hmem, (h.sets hmem).isSome_iff.mp hon⟩
    · rw [h.keeps fun value hmem => hnamed ⟨value, hmem⟩, options?_allOff] at hon
      cases hon
  · rintro ⟨value, hmem, hvalue⟩
    exact (h.sets hmem).isSome_iff.mpr hvalue

lemma mem_enabledRules_iff (c : Config) (name : String) :
    name ∈ c.enabledRules ↔ ∃ rule : RuleId, rule.name = name ∧ c.enables rule = true := by
  simp [enabledRules, RuleId.mem_all, and_comm]

lemma ascending_names :
    (RuleId.all.map RuleId.name).Pairwise fun a b => Text.bytes a < Text.bytes b := by
  decide

lemma ascending_enabledRules (c : Config) :
    c.enabledRules.Pairwise fun a b => Text.bytes a < Text.bytes b :=
  ascending_names.sublist (List.filter_sublist.map RuleId.name)

/-- What an object with these entries comes to: the settings that its entries give, or the first
of its faults. -/
structure Describes (entries : Json.Entries) (outcome : Except ConfigError Config) : Prop where
  ok_iff : (∃ c, outcome = .ok c) ↔ ∀ entry ∈ entries, Accepted entry
  enables_iff : ∀ c, outcome = .ok c → ∀ rule : RuleId,
    (c.enables rule = true ↔ ∃ value, (rule.name, value) ∈ entries ∧ value ≠ .boolean false)
  sets_iff : ∀ c, outcome = .ok c → ∀ (rule : RuleId) (value : Json),
    (rule.name, value) ∈ entries → ∀ options, Sets rule value options ↔ c.options? rule = options
  mem_enabledRules_iff : ∀ c, outcome = .ok c → ∀ name,
    (name ∈ c.enabledRules ↔ ∃ rule : RuleId, rule.name = name ∧ c.enables rule = true)
  ascending : ∀ c, outcome = .ok c →
    c.enabledRules.Pairwise fun a b => Text.bytes a < Text.bytes b
  error_iff : ∀ error, outcome = .error error ↔ FirstOffence entries error

lemma describes_ok {entries : Json.Entries} {c : Config}
    (hinner : ∀ entry ∈ entries, entry.2.Ordered) (haccepted : ∀ entry ∈ entries, Accepted entry)
    (htakes : TakesOver entries allOff c) : Describes entries (.ok c) := by
  refine ⟨iff_of_true ⟨c, rfl⟩ haccepted, ?_, ?_, ?_, ?_, ?_⟩
  · rintro _ ⟨⟩
    exact htakes.enables_iff
  · rintro _ ⟨⟩ rule value hmem options
    constructor
    · intro hsets
      exact (htakes.sets hmem).unique (hinner _ hmem) hsets
    · rintro rfl
      exact htakes.sets hmem
  · rintro _ ⟨⟩
    exact c.mem_enabledRules_iff
  · rintro _ ⟨⟩
    exact c.ascending_enabledRules
  · intro error
    refine iff_of_false nofun ?_
    rintro ⟨entry, hmem, hoffends, -⟩
    exact hoffends.not_accepted (haccepted entry hmem)

lemma describes_error {entries : Json.Entries} {error : ConfigError}
    (hascending : entries.Ascending) (hoffence : FirstOffence entries error) :
    Describes entries (.error error) := by
  refine ⟨iff_of_false (by simp) ?_, nofun, nofun, nofun, nofun, ?_⟩
  · intro hall
    obtain ⟨entry, hmem, hoffends, -⟩ := hoffence
    exact hoffends.not_accepted (hall entry hmem)
  · intro error'
    constructor
    · rintro ⟨⟩
      exact hoffence
    · intro hoffence'
      rw [hoffence.unique hascending hoffence']

lemma describes_ofEntries {entries : Json.Entries} (hordered : (Json.object entries).Ordered) :
    Describes entries (ofEntries entries) := by
  obtain ⟨hascending, hinner⟩ := Json.ordered_object_iff.mp hordered
  unfold ofEntries
  rcases foldlM_addEntry_cases hordered allOff with
    ⟨c, hc, haccepted, htakes⟩ | ⟨error, herror, hoffence⟩
  · rw [hc]
    exact describes_ok hinner haccepted htakes
  · rw [herror]
    exact describes_error hascending hoffence

/-- The object decides the settings, for every object with ascending keys, and so for every text
that spells an object. -/
theorem object_describes_settings :
    (∀ entries : Json.Entries, (Json.object entries).Ordered →
      Describes entries (ofEntries entries)) ∧
    ∀ (text : String) (entries : Json.Entries), Json.readObject text = .ok entries →
      Describes entries (ofText text) := by
  constructor
  · intro entries hordered
    exact describes_ofEntries hordered
  · intro text entries hread
    have htext : ofText text = ofEntries entries := by simp only [ofText, hread]
    rw [htext]
    exact describes_ofEntries (Json.ordered_of_readObject hread)

/-- One rule is turned off, and one is on with its options by position. -/
theorem object_describes_settings_positional :
    let text := "\x7b\"no-inline-styles\": false, \"boolean-naming\": [[\"has\"]]\x7d"
    let entries : Json.Entries :=
      [("boolean-naming", .array [.array [.text "has"]]), ("no-inline-styles", .boolean false)]
    Json.readObject text = .ok entries ∧ Describes entries (ofText text) ∧
      Describes entries
        (.ok { allOff with booleanNaming := some { allowedPrefixes := ["has"] } }) := by
  intro text entries
  have hread : Json.readObject text = .ok entries := by
    simp only [text, entries]
    cbv
  refine ⟨hread, object_describes_settings.2 text entries hread, ?_⟩
  exact object_describes_settings.1 entries (Json.ordered_of_readObject hread)

end Config

end JsxLint
