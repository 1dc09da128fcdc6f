import Mathlib.Data.List.Basic
import TemplateMarkup.Proofs.ElementContext.ClosedForm
import TemplateMarkup.RawText.Scanner

/-!
Contract: one path of tags read in each of the three dialects.

Owns:
- what the client dialect adds to the verdicts of the server dialect on a tag;
- `AcrossDialects`, the relation of the three contexts at one place of a path, and its
  preservation by a step;
- the ban on raw elements in the client dialect.

Does not own: paths on which the dialect changes.

The client dialect bans more and sets links in a line of text, and it has no other verdict
of its own. A ban is not inherited, so only links leave a trace further down: each link in
an element with content makes the server dialect count one step more.
-/

set_option autoImplicit false

namespace TemplateMarkup

/-! ## Verdicts on one tag -/

namespace Dialect

/-- What the client dialect adds is not marked in the server dialect. -/
theorem marks_of_mem_clientTags
    {property : Trait}
    {tag : String}
    (added : tag ∈ property.clientTags) :
    Dialect.client.marks property tag = true ∧ Dialect.server.marks property tag = false := by
  have disjoint :
      ∀ property : Trait, ∀ tag ∈ property.clientTags,
        Dialect.server.marks property tag = false := by
    intro property
    cases property <;> decide
  refine ⟨?_, disjoint property tag added⟩
  rw [marks_client, decide_eq_true added, Bool.true_or]

/-- The two dialects differ on exactly the tags that the client dialect adds. -/
theorem marks_client_ne_iff (property : Trait) (tag : String) :
    Dialect.client.marks property tag ≠ Dialect.server.marks property tag ↔
      tag ∈ property.clientTags := by
  constructor
  · intro different
    by_contra absent
    rw [marks_client, decide_eq_false absent, Bool.false_or] at different
    exact different rfl
  · intro added
    rw [(marks_of_mem_clientTags added).1, (marks_of_mem_clientTags added).2]
    decide

theorem marks_client_of_clientTags_eq_nil
    (property : Trait)
    (nothingAdded : property.clientTags = []) :
    Dialect.client.marks property = Dialect.server.marks property := by
  funext tag
  rw [marks_client, nothingAdded]
  rfl

theorem marks_client_of_marks_server
    {property : Trait}
    {tag : String}
    (marked : Dialect.server.marks property tag = true) :
    Dialect.client.marks property tag = true := by
  rw [marks_client, marked, Bool.or_true]

/-- The client dialect bans every element whose content is raw text. -/
theorem marks_banned_of_rawElement?
    {tag : String}
    {element : RawElement}
    (found : Dialect.client.rawElement? tag = some element) :
    Dialect.client.marks .banned tag = true := by
  have allBanned :
      ∀ element ∈ Dialect.client.rawElements,
        Dialect.client.marks .banned element.tag = true := by
    decide
  obtain ⟨listed, rfl⟩ := mem_and_tag_of_rawElement? found
  exact allBanned element listed

end Dialect

namespace ElementContext

/-! ## Links -/

/-- The steps of a path that is read in one dialect. -/
def pathIn (dialect : Dialect) (tags : List String) : List PathStep :=
  tags.map fun tag => ⟨dialect, tag⟩

/-- Whether an element is a link in an element with content. -/
def isInnerLink (above tag : String) : Bool :=
  tag = "a" && !Dialect.server.marks .void above

/-- How many elements along a path are links in elements with content. -/
def innerLinks (outer : String) (tags : List String) : Nat :=
  ((outer :: tags).zip tags).countP fun neighbours =>
    isInnerLink neighbours.1 neighbours.2

theorem innerLinks_cons (outer tag : String) (rest : List String) :
    innerLinks outer (tag :: rest) =
      (if isInnerLink outer tag then 1 else 0) + innerLinks tag rest := by
  rw [innerLinks, List.zip_cons_cons, List.countP_cons, Nat.add_comm]
  rfl

/-- The dialects count a step alike, unless it leads to a link. -/
theorem deepens_server (above tag : String) :
    (if PathStep.deepens above ⟨.server, tag⟩ then 1 else 0) =
      (if PathStep.deepens above ⟨.client, tag⟩ then 1 else 0) +
        if isInnerLink above tag then 1 else 0 := by
  have isLink : tag ∈ Trait.clientTags .inline ↔ tag = "a" := List.mem_singleton
  unfold PathStep.deepens isInnerLink
  rw [Dialect.marks_client_of_clientTags_eq_nil .void rfl, Dialect.marks_client]
  by_cases link : tag = "a"
  · have listed := isLink.mpr link
    rw [(Dialect.marks_of_mem_clientTags listed).2, decide_eq_true listed, decide_eq_true link]
    cases Dialect.server.marks .void above <;> rfl
  · simp [isLink, link]

theorem deepens_xml (above tag : String) : PathStep.deepens above ⟨.xml, tag⟩ = true := by
  simp [PathStep.deepens]

/-! ## Three readings of one path -/

/-- The contexts in the three dialects of an element with the given tag, to which `steps` steps
lead, `links` of them to a link in an element with content. -/
structure AcrossDialects
    (tag : String)
    (links steps : Nat)
    (server client xml : ElementContext) : Prop where
  server_tag : server.tag = tag
  client_tag : client.tag = tag
  server_verdicts : Verdicts ⟨.server, tag⟩ server
  client_verdicts : Verdicts ⟨.client, tag⟩ client
  xml_verdicts : Verdicts ⟨.xml, tag⟩ xml
  namespace_eq : client.namespaceName = server.namespaceName
  layout_eq : client.layout = server.layout
  isVerbatim_eq : client.isVerbatim = server.isVerbatim
  xml_namespace : xml.namespaceName = "xml"
  xml_isVerbatim : xml.isVerbatim = false
  server_depth : server.depth.toNat = client.depth.toNat + links
  server_depth_le : server.depth.toNat ≤ steps
  xml_depth : xml.depth.toNat = steps

theorem acrossDialects_root (tag : String) :
    AcrossDialects tag 0 0 (root .server tag) (root .client tag) (root .xml tag) where
  server_tag := rfl
  client_tag := rfl
  server_verdicts := verdicts_root .server tag
  client_verdicts := verdicts_root .client tag
  xml_verdicts := verdicts_root .xml tag
  namespace_eq := by
    simp only [root, Dialect.marks_client_of_clientTags_eq_nil .namespaceRoot rfl]
    rfl
  layout_eq := rfl
  isVerbatim_eq := congrFun (Dialect.marks_client_of_clientTags_eq_nil .verbatim rfl) tag
  xml_namespace := by
    simp only [root, Dialect.marks_xml, Bool.false_eq_true, if_false]
    rfl
  xml_isVerbatim := Dialect.marks_xml .verbatim tag
  server_depth := rfl
  server_depth_le := Nat.le_refl 0
  xml_depth := rfl

namespace AcrossDialects

variable {tag : String} {links steps : Nat} {server client xml : ElementContext}

/-- One step further in all three dialects. -/
theorem exists_child
    (across : AcrossDialects tag links steps server client xml)
    (countable : steps + 1 < UInt64.size)
    (below : String) :
    ∃ serverBelow clientBelow xmlBelow,
      child .server server below = .ok serverBelow ∧
      child .client client below = .ok clientBelow ∧
      child .xml xml below = .ok xmlBelow ∧
      AcrossDialects below (links + if isInnerLink tag below then 1 else 0) (steps + 1)
        serverBelow clientBelow xmlBelow := by
  have serverDepth := across.server_depth
  have serverDepthLe := across.server_depth_le
  have xmlDepth := across.xml_depth
  obtain ⟨serverBelow, serverFound, serverCounted⟩ :=
    ElementContext.exists_child server (by omega) ⟨.server, below⟩
  obtain ⟨clientBelow, clientFound, clientCounted⟩ :=
    ElementContext.exists_child client (by omega) ⟨.client, below⟩
  obtain ⟨xmlBelow, xmlFound, xmlCounted⟩ :=
    ElementContext.exists_child xml (by omega) ⟨.xml, below⟩
  rw [across.server_tag, deepens_server] at serverCounted
  rw [across.client_tag] at clientCounted
  rw [deepens_xml, if_pos rfl] at xmlCounted
  have oneStep :
      (if PathStep.deepens tag ⟨.client, below⟩ then 1 else 0) +
          (if isInnerLink tag below then 1 else 0) ≤ 1 := by
    rw [← deepens_server]
    split <;> omega
  refine ⟨_, _, _, serverFound, clientFound, xmlFound, ?_⟩
  exact
    { server_tag := rfl
      client_tag := rfl
      server_verdicts := ⟨rfl, rfl, rfl⟩
      client_verdicts := ⟨rfl, rfl, rfl⟩
      xml_verdicts := ⟨rfl, rfl, rfl⟩
      namespace_eq := by
        simp only [childAt, Dialect.marks_client_of_clientTags_eq_nil .namespaceRoot rfl,
          across.namespace_eq]
      layout_eq := rfl
      isVerbatim_eq := by
        simp only [childAt, Dialect.marks_client_of_clientTags_eq_nil .verbatim rfl,
          across.client_tag, across.server_tag]
      xml_namespace := by
        simp only [childAt, Dialect.marks_xml, Bool.false_eq_true, if_false]
        exact across.xml_namespace
      xml_isVerbatim := by
        simp only [childAt, Dialect.marks_xml, Bool.or_false]
      server_depth := by
        show serverBelow.toNat = clientBelow.toNat + _
        omega
      server_depth_le := by
        show serverBelow.toNat ≤ steps + 1
        omega
      xml_depth := by
        show xmlBelow.toNat = steps + 1
        omega }

/-- A whole path in all three dialects. -/
theorem exists_descend
    (across : AcrossDialects tag links steps server client xml)
    (tags : List String)
    (countable : steps + tags.length < UInt64.size) :
    ∃ serverEnd clientEnd xmlEnd,
      server.descend (pathIn .server tags) = .ok serverEnd ∧
      client.descend (pathIn .client tags) = .ok clientEnd ∧
      xml.descend (pathIn .xml tags) = .ok xmlEnd ∧
      AcrossDialects (tags.getLastD tag) (links + innerLinks tag tags) (steps + tags.length)
        serverEnd clientEnd xmlEnd := by
  induction tags generalizing tag links steps server client xml with
  | nil => exact ⟨server, client, xml, rfl, rfl, rfl, across⟩
  | cons below rest inductionHypothesis =>
      rw [List.length_cons] at countable
      obtain ⟨serverBelow, clientBelow, xmlBelow, serverFound, clientFound, xmlFound, acrossBelow⟩ :=
        across.exists_child (by omega) below
      obtain ⟨serverEnd, clientEnd, xmlEnd, serverReached, clientReached, xmlReached, acrossEnd⟩ :=
        inductionHypothesis acrossBelow (by omega)
      refine ⟨serverEnd, clientEnd, xmlEnd, ?_, ?_, ?_, ?_⟩
      · simpa only [pathIn, List.map_cons, descend, serverFound] using serverReached
      · simpa only [pathIn, List.map_cons, descend, clientFound] using clientReached
      · simpa only [pathIn, List.map_cons, descend, xmlFound] using xmlReached
      · rw [innerLinks_cons, ← Nat.add_assoc, List.length_cons, Nat.add_comm rest.length,
          ← Nat.add_assoc, List.getLastD_cons]
        exact acrossEnd

theorem isBanned_iff (across : AcrossDialects tag links steps server client xml) :
    (server.isBanned = true → client.isBanned = true) ∧
    (client.isBanned = true ∧ server.isBanned = false ↔
      tag ∈ ["!--", "link", "script", "style"]) := by
  have isAdded : tag ∈ Trait.clientTags .banned ↔ tag ∈ ["!--", "link", "script", "style"] :=
    Iff.rfl
  rw [across.server_verdicts.isBanned_eq, across.client_verdicts.isBanned_eq, ← isAdded]
  refine ⟨Dialect.marks_client_of_marks_server, ?_, Dialect.marks_of_mem_clientTags⟩
  rintro ⟨inClient, notInServer⟩
  apply (Dialect.marks_client_ne_iff .banned tag).mp
  simp only [inClient, notInServer]
  decide

theorem isInline_iff (across : AcrossDialects tag links steps server client xml) :
    (client.isInline ≠ server.isInline ↔ tag = "a") ∧
    (tag = "a" → client.isInline = true ∧ server.isInline = false) := by
  have isLink : tag ∈ Trait.clientTags .inline ↔ tag = "a" := List.mem_singleton
  rw [across.server_verdicts.isInline_eq, across.client_verdicts.isInline_eq, ← isLink]
  exact ⟨Dialect.marks_client_ne_iff .inline tag, Dialect.marks_of_mem_clientTags⟩

end AcrossDialects

/-- The tag at a place of a path is the last one up to it. -/
theorem getElem?_cons_eq_getLastD_take
    (outer : String)
    {tags : List String}
    {count : Nat}
    (within : count ≤ tags.length) :
    (outer :: tags)[count]? = some ((tags.take count).getLastD outer) := by
  induction count generalizing outer tags with
  | zero => rfl
  | succ count inductionHypothesis =>
      cases tags with
      | nil => exact absurd within (Nat.not_succ_le_zero count)
      | cons below rest =>
          rw [List.getElem?_cons_succ, List.take_succ_cons, List.getLastD_cons]
          exact inductionHypothesis below (Nat.le_of_succ_le_succ within)

/-- A context that a dialect can make for a tag. -/
def MadeFor (dialect : Dialect) (tag : String) (context : ElementContext) : Prop :=
  context = root dialect tag ∨ ∃ parent, child dialect parent tag = .ok context

theorem isBanned_of_madeFor
    {dialect : Dialect}
    {tag : String}
    {context : ElementContext}
    (made : MadeFor dialect tag context) :
    context.isBanned = dialect.marks .banned tag := by
  rcases made with rfl | ⟨parent, found⟩
  · rfl
  · have ends : EndsIn parent.tag ⟨dialect, tag⟩ context := endsIn_of_child found
    exact ends.isBanned_eq

/-- Read in the three dialects, a path leads to contexts of which those of the server and of the
client dialect differ in bans, in links and in the depth below links only. The context in a
document without a fixed vocabulary tells nothing but how deep the element is. In the client
dialect every element with raw text is banned. -/
theorem dialects_on_one_path :
    (∀ (tag : String) (tags : List String),
      tags.length < UInt64.size →
      ∀ count ≤ tags.length,
        ∃ server client xml,
          (root .server tag).descend (pathIn .server (tags.take count)) = .ok server ∧
          (root .client tag).descend (pathIn .client (tags.take count)) = .ok client ∧
          (root .xml tag).descend (pathIn .xml (tags.take count)) = .ok xml ∧
          (tag :: tags)[count]? = some server.tag ∧
          (client.namespaceName = server.namespaceName ∧ client.tag = server.tag ∧
            client.layout = server.layout ∧ client.isVoid = server.isVoid ∧
            client.isVerbatim = server.isVerbatim) ∧
          (server.isBanned = true → client.isBanned = true) ∧
          (client.isBanned = true ∧ server.isBanned = false ↔
            server.tag ∈ ["!--", "link", "script", "style"]) ∧
          (client.isInline ≠ server.isInline ↔ server.tag = "a") ∧
          (server.tag = "a" → client.isInline = true ∧ server.isInline = false) ∧
          server.depth.toNat = client.depth.toNat + innerLinks tag (tags.take count) ∧
          (xml.namespaceName = "xml" ∧ xml.depth.toNat = count ∧ xml.isVoid = false ∧
            xml.isInline = false ∧ xml.isVerbatim = false ∧ xml.isBanned = false)) ∧
    ∀ (tag : String) (scanner : Scanner),
      Scanner.start? .client tag = some scanner →
      ∀ context, MadeFor .client tag context → context.isBanned = true := by
  refine ⟨?_, ?_⟩
  · intro tag tags countable count within
    have upTo : (tags.take count).length = count := List.length_take_of_le within
    have reached := (acrossDialects_root tag).exists_descend (tags.take count) (by omega)
    rw [Nat.zero_add, Nat.zero_add] at reached
    obtain ⟨server, client, xml, serverReached, clientReached, xmlReached, across⟩ := reached
    refine ⟨server, client, xml, serverReached, clientReached, xmlReached, ?_, ?_⟩
    · rw [getElem?_cons_eq_getLastD_take tag within, across.server_tag]
    rw [across.server_tag]
    refine ⟨?_, across.isBanned_iff.1, across.isBanned_iff.2, across.isInline_iff.1,
      across.isInline_iff.2, across.server_depth, ?_⟩
    · refine ⟨across.namespace_eq, across.client_tag, across.layout_eq, ?_, across.isVerbatim_eq⟩
      rw [across.client_verdicts.isVoid_eq, across.server_verdicts.isVoid_eq,
        Dialect.marks_client_of_clientTags_eq_nil .void rfl]
    · refine ⟨across.xml_namespace, across.xml_depth.trans upTo, ?_, ?_, across.xml_isVerbatim, ?_⟩
      · rw [across.xml_verdicts.isVoid_eq, Dialect.marks_xml]
      · rw [across.xml_verdicts.isInline_eq, Dialect.marks_xml]
      · rw [across.xml_verdicts.isBanned_eq, Dialect.marks_xml]
  · intro tag scanner started context made
    obtain ⟨element, found, -⟩ := Option.map_eq_some_iff.mp started
    rw [isBanned_of_madeFor made]
    exact Dialect.marks_banned_of_rawElement? found

/-- A link in a paragraph counts, and one below a line break does not. -/
theorem dialects_on_one_path_links :
    (∃ server client xml,
      (root .server "p").descend (pathIn .server ["a", "br", "a", "script"]) = .ok server ∧
      (root .client "p").descend (pathIn .client ["a", "br", "a", "script"]) = .ok client ∧
      (root .xml "p").descend (pathIn .xml ["a", "br", "a", "script"]) = .ok xml ∧
      server.tag = "script" ∧ client.isBanned = true ∧ server.isBanned = false ∧
      server.depth.toNat = client.depth.toNat + 1 ∧ xml.depth.toNat = 4) ∧
    ∃ scanner,
      Scanner.start? .client "script" = some scanner ∧
      ∃ parent context,
        child .client parent "script" = .ok context ∧ context.isBanned = true := by
  obtain ⟨onPath, rawBanned⟩ := dialects_on_one_path
  refine ⟨?_, ?_⟩
  · obtain ⟨server, client, xml, serverReached, clientReached, xmlReached, isLast, -, -, banned,
      -, -, depths, xmlFacts⟩ :=
      onPath "p" ["a", "br", "a", "script"] (by decide) 4 (by decide)
    have isScript : server.tag = "script" := (Option.some.inj isLast).symm
    have onlyClient := banned.mpr (by rw [isScript]; decide)
    exact ⟨server, client, xml, serverReached, clientReached, xmlReached, isScript, onlyClient.1,
      onlyClient.2, depths, xmlFacts.2.1⟩
  · have started :
        Scanner.start? .client "script" =
          some (Scanner.ofElement ⟨"script", "</script>"⟩ .altText) := by
      decide
    have made :
        child .client (root .client "div") "script" =
          .ok (childAt .client (root .client "div") "script" 1) := rfl
    exact ⟨_, started, _, _, made, rawBanned "script" _ started _ (Or.inr ⟨_, made⟩)⟩

end ElementContext

end TemplateMarkup
