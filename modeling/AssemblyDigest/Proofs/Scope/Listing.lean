import AssemblyDigest.Proofs.Text.Layout
import AssemblyDigest.Proofs.Text.Trim
import AssemblyDigest.Scope.Declaration

/-! # What a declaration lists

A listing gives the text of a declaration by its prefixes: each is a trimmed text within one line,
blanks stand around it, and a line feed is among those between two prefixes. A text has the prefixes
of its listings and no others (`AssemblyDigest.Declaration.prefixes_eq_iff`). Only line feeds
separate prefixes, so a prefix may hold any other blank, and a carriage return or a line separator
at its end is trimmed like a space.
-/

namespace AssemblyDigest

open Text

/-- A prefix in a listing with the gap that follows it. -/
structure Listing.Item where
  part : Text
  gap : Text
  trimmed : Trimmed part
  noFeed : '\n' ∉ part
  blank : Blank gap

/-- The prefix and its gap. -/
def Listing.Item.text (item : Item) : Text :=
  item.part ++ item.gap

/-- A text by the prefixes it lists. -/
structure Listing where
  /-- What stands before the first prefix. -/
  lead : Text
  items : List Listing.Item
  blank : Blank lead
  /-- Between two prefixes there is a line feed. -/
  feeds : ∀ item ∈ items.dropLast, '\n' ∈ item.gap

namespace Listing

/-- The text of a listing. -/
def text (listing : Listing) : Text :=
  listing.lead ++ listing.items.flatMap Item.text

/-- The prefixes of a listing. -/
def parts (listing : Listing) : List Text :=
  listing.items.map Item.part

/-- The listing of the empty text. -/
def empty : Listing where
  lead := []
  items := []
  blank := .nil
  feeds := nofun

/-- A listing after a gap. -/
def after (gap : Text) (listing : Listing) (blank : Blank gap) : Listing where
  lead := gap ++ listing.lead
  items := listing.items
  blank := blank.append listing.blank
  feeds := listing.feeds

/-- An item in front of a listing, whose lead goes into the gap of the item. -/
def cons (item : Item) (listing : Listing)
    (separated : listing.items ≠ [] → '\n' ∈ listing.lead) : Listing where
  lead := []
  items :=
    { item with gap := item.gap ++ listing.lead, blank := item.blank.append listing.blank } ::
      listing.items
  blank := .nil
  feeds := by
    cases same : listing.items with
    | nil => exact fun _ member => (List.not_mem_nil member).elim
    | cons next more =>
        rw [List.dropLast_cons_cons]
        refine List.forall_mem_cons.mpr ⟨?_, same ▸ listing.feeds⟩
        exact List.mem_append_right _ (separated (same ▸ List.cons_ne_nil _ _))

theorem text_after (gap : Text) (listing : Listing) (blank : Blank gap) :
    (listing.after gap blank).text = gap ++ listing.text :=
  List.append_assoc _ _ _

theorem text_cons (item : Item) (listing : Listing)
    (separated : listing.items ≠ [] → '\n' ∈ listing.lead) :
    (listing.cons item separated).text = item.text ++ listing.text := by
  simp only [cons, text, Item.text, List.nil_append, List.flatMap_cons, List.append_assoc]

/-- A piece of a line can be put in front of a listing that it is separated from. -/
theorem exists_piece_append {piece : Text} (noFeed : '\n' ∉ piece) (listing : Listing)
    (separated : listing.items ≠ [] → '\n' ∈ listing.lead) :
    ∃ longer : Listing, longer.text = piece ++ listing.text := by
  rcases blank_or_between piece with
    blank | ⟨before, part, after, rfl, blank, trimmed, blankAfter⟩
  · exact ⟨listing.after piece blank, text_after _ _ _⟩
  · have noFeedInPart : '\n' ∉ part := fun member =>
      noFeed (List.mem_append_right _ (List.mem_append_left _ member))
    let item : Item := ⟨part, after, trimmed, noFeedInPart, blankAfter⟩
    refine ⟨(listing.cons item separated).after before blank, ?_⟩
    rw [text_after, text_cons, List.append_assoc]
    rfl

theorem blank_feed : Blank ['\n'] :=
  List.forall_mem_singleton.mpr rfl

/-- Every text has a listing. The induction is on the lines that a line feed ends. -/
theorem exists_text (text : Text) : ∃ listing : Listing, listing.text = text := by
  obtain ⟨raws, tail, noFeed, noFeedAfter, rfl⟩ := exists_ended_append text
  induction raws with
  | nil =>
      obtain ⟨listing, same⟩ := exists_piece_append noFeedAfter empty fun some => (some rfl).elim
      exact ⟨listing, same.trans (List.append_nil tail)⟩
  | cons raw raws ih =>
      obtain ⟨later, same⟩ := ih fun other member => noFeed other (List.mem_cons_of_mem _ member)
      obtain ⟨listing, longer⟩ := exists_piece_append (noFeed raw List.mem_cons_self)
        (later.after ['\n'] blank_feed) fun _ => List.mem_cons_self
      refine ⟨listing, ?_⟩
      rw [longer, text_after, same, ended_cons, List.append_assoc]
      rfl

end Listing

namespace Declaration

/-- The carriage return of a line ending is trimmed away. -/
theorem trim_dropEnd_return (line : Text) : trim (dropEnd '\r' line) = trim line := by
  unfold dropEnd
  split
  · next returns =>
      obtain ⟨shorter, rfl⟩ := List.getLast?_eq_some_iff.mp returns
      rw [List.dropLast_concat, trim_append_blank _ (List.forall_mem_singleton.mpr rfl)]
  · rfl

/-- The prefixes of a text are its trimmed pieces between line feeds, where they are not empty. -/
theorem prefixes_parse (text : Text) :
    (parse text).prefixes = ((splitOn '\n' text).map trim).filter (· ≠ []) := by
  obtain ⟨raws, tail, noFeed, noFeedAfter, rfl⟩ := exists_ended_append text
  have raw : raws.map (trim ∘ dropEnd '\r') = raws.map trim :=
    List.map_congr_left fun line _ => trim_dropEnd_return line
  have last : ((lines tail).map trim).filter (· ≠ []) = [trim tail].filter (· ≠ []) := by
    by_cases empty : tail = []
    · subst empty
      rfl
    · rw [lines_of_not_mem empty noFeedAfter, List.map_singleton]
  rw [parse, lines_ended_append noFeed, List.map_append, List.filter_append, List.map_map, raw,
    last, splitOn_ended_append noFeed noFeedAfter, List.map_append, List.filter_append,
    List.map_singleton]

/-- A line feed divides the prefixes into those before and those after it. -/
theorem prefixes_append_cons (first second : Text) :
    (parse (first ++ '\n' :: second)).prefixes =
      (parse first).prefixes ++ (parse second).prefixes := by
  rw [prefixes_parse, splitOn_append_cons, List.map_append, List.filter_append, ← prefixes_parse,
    ← prefixes_parse]

theorem prefixes_nil : (parse []).prefixes = [] := rfl

/-- A trimmed text within a line is a prefix, whatever blanks follow it there. -/
theorem prefixes_of_line {part gap : Text} (trimmed : Trimmed part) (noFeed : '\n' ∉ part)
    (blank : Blank gap) (noFeedAfter : '\n' ∉ gap) : (parse (part ++ gap)).prefixes = [part] := by
  have noFeedAtAll : '\n' ∉ part ++ gap := fun member =>
    (List.mem_append.mp member).elim noFeed noFeedAfter
  have part_eq : trim (part ++ gap) = part := trim_between .nil trimmed blank
  rw [prefixes_parse, splitOn_of_not_mem noFeedAtAll, List.map_singleton, part_eq]
  exact List.filter_cons_of_pos (decide_eq_true trimmed.nonempty)

/-- Blanks in front of a text do not change its prefixes, line feeds included. -/
theorem prefixes_blank_append {gap : Text} (blank : Blank gap) (text : Text) :
    (parse (gap ++ text)).prefixes = (parse text).prefixes := by
  induction gap with
  | nil => rfl
  | cons char gap ih =>
      obtain ⟨blankChar, blankGap⟩ := List.forall_mem_cons.mp blank
      rw [← ih blankGap, List.cons_append]
      by_cases feed : char = '\n'
      · subst feed
        exact prefixes_append_cons [] (gap ++ text)
      · rw [prefixes_parse, prefixes_parse, splitOn, if_neg feed]
        cases pieces : splitOn '\n' (gap ++ text) with
        | nil => exact (splitOn_ne_nil '\n' _ pieces).elim
        | cons piece more =>
            have same : trim (char :: piece) = trim piece :=
              trim_blank_append (List.forall_mem_singleton.mpr blankChar) piece
            rw [consFirst, List.map_cons, List.map_cons, same]

/-- The first item of a listing is the first prefix. -/
theorem prefixes_item_append (item : Listing.Item) {rest : Text}
    (separated : rest ≠ [] → '\n' ∈ item.gap) :
    (parse (item.text ++ rest)).prefixes = item.part :: (parse rest).prefixes := by
  rw [Listing.Item.text]
  by_cases feed : '\n' ∈ item.gap
  · obtain ⟨before, after, division, noFeedBefore⟩ := List.eq_append_cons_of_mem feed
    have blank := item.blank
    rw [division] at blank ⊢
    obtain ⟨blankBefore, blankAfter⟩ := List.forall_mem_append.mp blank
    have blankTail : Blank after := fun char member =>
      blankAfter char (List.mem_cons_of_mem _ member)
    rw [← List.append_assoc, List.append_assoc, List.cons_append, prefixes_append_cons,
      prefixes_of_line item.trimmed item.noFeed blankBefore noFeedBefore,
      prefixes_blank_append blankTail, List.singleton_append]
  · have none : rest = [] := by_contra fun some => feed (separated some)
    rw [none, List.append_nil, prefixes_of_line item.trimmed item.noFeed item.blank feed,
      prefixes_nil]

/-- Items with line feeds between them are listed one by one. -/
theorem prefixes_flatMap {items : List Listing.Item}
    (feeds : ∀ item ∈ items.dropLast, '\n' ∈ item.gap) :
    (parse (items.flatMap Listing.Item.text)).prefixes = items.map Listing.Item.part := by
  induction items with
  | nil => rfl
  | cons item rest ih =>
      cases rest with
      | nil => exact prefixes_item_append item fun some => (some rfl).elim
      | cons next more =>
          rw [List.dropLast_cons_cons] at feeds
          obtain ⟨feed, feedsAfter⟩ := List.forall_mem_cons.mp feeds
          rw [List.flatMap_cons, prefixes_item_append item fun _ => feed, ih feedsAfter]
          rfl

/-- The text of a listing has the prefixes of the listing. -/
theorem prefixes_text (listing : Listing) : (parse listing.text).prefixes = listing.parts := by
  rw [Listing.text, prefixes_blank_append listing.blank, prefixes_flatMap listing.feeds]
  rfl

/-- Prefixes that are listed one to a line are read back. -/
theorem prefixes_joinLines (items : List Listing.Item) :
    (parse (joinLines (items.map Listing.Item.part))).prefixes =
      items.map Listing.Item.part := by
  have alone : ∀ item : Listing.Item, (parse item.part).prefixes = [item.part] := fun item => by
    have single := prefixes_of_line item.trimmed item.noFeed .nil List.not_mem_nil
    rwa [List.append_nil] at single
  induction items with
  | nil => rfl
  | cons item rest ih =>
      cases rest with
      | nil => exact alone item
      | cons next more =>
          rw [List.map_cons, List.map_cons, joinLines, prefixes_append_cons, alone]
          exact congrArg (item.part :: ·) ih

/-- **The prefixes of a text** are those of its listings. Hence a declaration that is written out
one prefix to a line is read back, and two declarations with a line feed between them make one with
the prefixes of both. -/
theorem prefixes_eq_iff (text : Text) :
    (∀ parts, (parse text).prefixes = parts ↔
      ∃ listing : Listing, listing.text = text ∧ listing.parts = parts) ∧
    parse (joinLines (parse text).prefixes) = parse text ∧
    ∀ other, (parse (text ++ '\n' :: other)).prefixes =
      (parse text).prefixes ++ (parse other).prefixes := by
  obtain ⟨listing, rfl⟩ := Listing.exists_text text
  refine ⟨fun parts => ⟨fun same => ?_, ?_⟩, ?_, prefixes_append_cons listing.text⟩
  · exact ⟨listing, rfl, (prefixes_text listing).symm.trans same⟩
  · rintro ⟨other, sameText, rfl⟩
    rw [← sameText, prefixes_text]
  · have read := (prefixes_joinLines listing.items).trans (prefixes_text listing).symm
    rw [prefixes_text]
    exact congrArg Declaration.mk read

/-- A next-line character stands within a prefix, a line separator around one. -/
example : (parse ['a', '\u0085', 'b', '\r', '\n', '\u2028', 'c']).prefixes =
    [['a', '\u0085', 'b'], ['c']] := by
  decide

end Declaration

end AssemblyDigest
