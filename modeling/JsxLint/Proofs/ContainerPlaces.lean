import JsxLint.Proofs.Sites

/-! Where an expression container is placed. A container in an attribute belongs to the tag that
the attribute stands in, and the place found is that tag whenever the tag has a printable name. For
a tag without one, such as `<this>`, the search goes on: the container is placed at the nearest tag
further out that has a name, if it stands inside such a tag, and has no place otherwise. An element
whose children the container is among is not such a tag. Trees may be of any form as long as their
attributes stand in the tags of elements. -/
namespace JsxLint

def Site.attributeInTag (site : Site) : Bool :=
  match site.node.kind, site.around with
  | .jsxAttribute _, tag :: element :: _ => tag.kind = .opening && element.kind = .element
  | .jsxAttribute _, _ => false
  | _, _ => true

/-- Every attribute of the tree stands in the opening tag of an element. -/
def Node.AttributesInTags (root : Node) : Prop :=
  ∀ site ∈ root.sites, site.attributeInTag = true

lemma Node.kind_of_attributeName? {n : Node} {name : String} (h : n.attributeName? = some name) :
    ∃ printed, n.kind = .jsxAttribute printed := by
  unfold Node.attributeName? at h
  split at h
  · exact ⟨_, rfl⟩
  · cases h

lemma Node.kind_of_openingName? {n : Node} {name : String} (h : n.openingName? = some name) :
    n.kind = .opening := by
  unfold Node.openingName? at h
  split at h
  · rfl
  · cases h

lemma Node.AttributesInTags.exists_tag {root attr : Node} (h : root.AttributesInTags)
    {outer : Surroundings} {name : String} (hattr : ⟨attr, outer⟩ ∈ root.sites)
    (hname : attr.attributeName? = some name) :
    ∃ tag element rest, outer = tag :: element :: rest ∧ tag.kind = .opening ∧
      element.kind = .element := by
  obtain ⟨printed, hkind⟩ := Node.kind_of_attributeName? hname
  have hplaced := h _ hattr
  rw [Site.attributeInTag, hkind] at hplaced
  rcases outer with _ | ⟨tag, _ | ⟨element, rest⟩⟩
  · cases hplaced
  · cases hplaced
  · simp only [Bool.and_eq_true, decide_eq_true_eq] at hplaced
    exact ⟨tag, element, rest, rfl, hplaced⟩

namespace Placement

/-- In an attribute of a tag the place is given by the name of the tag or, failing that, by the
nearest tag further out that has one. -/
lemma of?_attribute {attr tag element : Node} {name : String}
    (hname : attr.attributeName? = some name) (helement : element.kind = .element)
    (rest : Surroundings) :
    of? (attr :: tag :: element :: rest) =
      (tag.openingName?.or (rest.findSome? Node.openingName?)).map (prop name) := by
  obtain ⟨printed, hkind⟩ := Node.kind_of_attributeName? hname
  have hunnamed : element.openingName? = none := by
    cases hopening : element.openingName? with
    | none => rfl
    | some other => rw [Node.kind_of_openingName? hopening] at helement; cases helement
  have hsearch : (tag :: element :: rest).findSome? Node.openingName? =
      tag.openingName?.or (rest.findSome? Node.openingName?) := by
    cases htag : tag.openingName? <;> simp [htag, hunnamed]
  simp only [of?, hkind, hname, hsearch, Option.bind_eq_bind, Option.bind_some]
  cases tag.openingName?.or (rest.findSome? Node.openingName?) <;> rfl

lemma of?_element {n : Node} (h : n.kind = .element) (outer : Surroundings) :
    of? (n :: outer) = n.elementName?.map child := by
  rw [of?, h]

lemma of?_fragment {n : Node} (h : n.kind = .fragment) (outer : Surroundings) :
    of? (n :: outer) = some fragmentChild := by
  rw [of?, h]

end Placement

/-- A container in an attribute is placed at the tag of the attribute or, if that has no name, at
the nearest tag further out with one; a child at its own element or fragment. -/
theorem placed_at_own_tag_or_nearest_named {root : Node} (hroot : root.AttributesInTags)
    {site : Site} (hsite : site ∈ root.sites) :
    (∀ attr outer name, site.around = attr :: outer → attr.attributeName? = some name →
      ∃ tag element rest, outer = tag :: element :: rest ∧ tag.kind = .opening ∧
        element.kind = .element ∧
        (∀ own, tag.openingName? = some own →
          Placement.of? site.around = some (.prop name own)) ∧
        (tag.openingName? = none →
          ((∀ further ∈ rest, further.openingName? = none) → Placement.of? site.around = none) ∧
          ∀ between named beyond other, rest = between ++ named :: beyond →
            (∀ n ∈ between, n.openingName? = none) → named.openingName? = some other →
            Placement.of? site.around = some (.prop name other))) ∧
    ∀ parent outer, site.around = parent :: outer →
      (parent.kind = .element →
        Placement.of? site.around = parent.elementName?.map Placement.child) ∧
      (parent.kind = .fragment → Placement.of? site.around = some .fragmentChild) := by
  constructor
  · intro attr outer name haround hname
    have hpath : site.node :: site.around = [site.node] ++ attr :: outer := by
      rw [haround]
      rfl
    have hattr := mem_sites_of_path hsite hpath
    obtain ⟨tag, element, rest, rfl, htag, helement⟩ := hroot.exists_tag hattr hname
    rw [haround, Placement.of?_attribute hname helement]
    refine ⟨tag, element, rest, rfl, htag, helement, fun own hown => ?_, fun hnone => ⟨?_, ?_⟩⟩
    · rw [hown]
      rfl
    · intro hrest
      rw [hnone, Option.none_or, List.findSome?_eq_none_iff.mpr hrest]
      rfl
    · intro between named beyond other hrest hbetween hother
      have hnearest := List.findSome?_eq_some_iff.mpr
        ⟨between, named, beyond, hrest, hother, hbetween⟩
      rw [hnone, Option.none_or, hnearest]
      rfl
  · intro parent outer haround
    rw [haround]
    exact ⟨fun h => Placement.of?_element h outer, fun h => Placement.of?_fragment h outer⟩

/-- In `<P x={<this v={a} />} />` the container of `v` is placed at `P`, although its own tag is
`<this>`. -/
theorem placed_at_own_tag_or_nearest_named_nestedThis :
    let word := fun text start => Node.mk (.jsxWord text) ⟨start, start + 1⟩ []
    let a := Node.mk .container ⟨14, 17⟩ [.mk (.identifier "a") ⟨15, 16⟩ []]
    let v := Node.mk (.jsxAttribute (some "a")) ⟨12, 17⟩ [word "v" 12, a]
    let thisTag := Node.mk .opening ⟨6, 20⟩ [.mk .selfReference ⟨7, 11⟩ [], v]
    let inner := Node.mk .element ⟨6, 20⟩ [thisTag]
    let braced := Node.mk .container ⟨5, 21⟩ [inner]
    let x := Node.mk (.jsxAttribute (some "<this v={a} />")) ⟨3, 21⟩ [word "x" 3, braced]
    let tag := Node.mk .opening ⟨0, 24⟩ [.mk (.identifier "P") ⟨1, 2⟩ [], x]
    let outer := Node.mk .element ⟨0, 24⟩ [tag]
    let root := Node.mk .program ⟨0, 24⟩ [outer]
    root.AttributesInTags ∧
      ⟨a, [v, thisTag, inner, braced, x, tag, outer, root]⟩ ∈ root.sites ∧
      thisTag.openingName? = none ∧
      Placement.of? [v, thisTag, inner, braced, x, tag, outer, root] = some (.prop "v" "P") := by
  intro word a v thisTag inner braced x tag outer root
  have hroot : root.AttributesInTags := by
    unfold Node.AttributesInTags
    decide
  have hsite : (⟨a, [v, thisTag, inner, braced, x, tag, outer, root]⟩ : Site) ∈ root.sites := by
    simp [root, outer, tag, x, braced, inner, thisTag, v, a, word, Node.sites, Node.sitesBelow,
      sitesBelowAll]
  have hplaces := (placed_at_own_tag_or_nearest_named hroot hsite).1
  obtain ⟨own, element, rest, hpath, -, -, -, hunnamed⟩ :=
    hplaces v [thisTag, inner, braced, x, tag, outer, root] "v" rfl rfl
  obtain ⟨htag, htail⟩ := List.cons.inj hpath
  obtain ⟨-, hrest⟩ := List.cons.inj htail
  rw [← htag, ← hrest] at hunnamed
  refine ⟨hroot, hsite, rfl, ?_⟩
  exact (hunnamed rfl).2 [braced, x] tag [outer, root] "P" rfl (by decide) rfl

end JsxLint
