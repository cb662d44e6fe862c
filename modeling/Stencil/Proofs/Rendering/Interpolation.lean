import Stencil.Proofs.Grammar.Kit.Interpolation
import Stencil.Proofs.Rendering.Prints

/-! # What literals with tags evaluate to

A literal is meant to be its texts with, between them, the escaped texts at the paths of its tags.
It evaluates to that when no text ends in a backslash right before a tag. Where one does, the tag
is text, and the backslash is lost or, when no tag is left, kept.
-/

namespace Stencil

open Grammar Grammar.Kit Evaluation

/-- The texts with the escaped texts at the paths between them. -/
def composed (value : Path → String) : List Piece → List Char → List Char
  | [], last => last
  | piece :: rest, last =>
    piece.text ++ ((Markup.escape (value piece.path)).toList ++ composed value rest last)

/-- What the literal evaluates to: its own characters when it holds no tag in the end, and else
what the joined pieces compose. -/
def rendered (value : Path → String) (pieces : List Piece) (last : List Char) : List Char :=
  if (joined pieces last).1 = [] then plainChars pieces last
  else composed value (joined pieces last).1 (joined pieces last).2

variable {scope : Scope} {data : Value} {value : Path → String}

theorem prints_spell {nodes others : List Node} {cs ds : List Char} (spell : Spell nodes cs)
    (rest : scope.Prints data others ds) : scope.Prints data (nodes ++ others) (cs ++ ds) := by
  obtain ⟨chunks, same, rfl⟩ := spell
  induction nodes generalizing chunks with
  | nil =>
    cases chunks with
    | nil => exact rest
    | cons chunk chunks => simp [Node.bareAll] at same
  | cons node nodes ih =>
    cases chunks with
    | nil => simp [Node.bareAll] at same
    | cons chunk chunks =>
      rw [Node.bareAll, List.map_cons, List.cons.injEq] at same
      rw [List.flatten_cons, List.append_assoc]
      exact Scope.prints_raw same.1 (ih chunks same.2)

/-- Raw text and tags in turn print the texts, each with the value behind it. -/
theorem prints_composed (builtin : scope.tags = Tags.builtin) {nodes : List Node}
    {pieces : List Piece} {last : List Char} (composes : Composes nodes pieces last)
    (there : ∀ piece ∈ pieces, data.get piece.path = .string (value piece.path)) :
    scope.Prints data nodes (composed value pieces last) := by
  induction pieces generalizing nodes with
  | nil =>
    have spell : Spell nodes last := composes
    have none : scope.Prints data [] [] := .nil
    simpa [composed] using prints_spell spell none
  | cons piece rest ih =>
    obtain ⟨raws, source, source', others, rfl, spell, following⟩ := composes
    exact prints_spell spell (Scope.prints_path builtin (there piece List.mem_cons_self) source
      source' (ih following fun other member => there other (List.mem_cons_of_mem _ member)))

/-- Joining pieces adds no tag. -/
theorem exists_name_of_mem_joined {pieces : List Piece} {last : List Char} {piece : Piece}
    (member : piece ∈ (joined pieces last).1) : ∃ other ∈ pieces, other.name = piece.name := by
  induction pieces generalizing piece with
  | nil => simp [joined] at member
  | cons first rest ih =>
    have later (inside : piece ∈ (joined rest last).1) :
        ∃ other ∈ first :: rest, other.name = piece.name := by
      obtain ⟨other, found, same⟩ := ih inside
      exact ⟨other, List.mem_cons_of_mem _ found, same⟩
    by_cases escapes : first.Escapes
    · rw [joined_cons_of_escapes escapes] at member
      rcases parts : joined rest last with ⟨_ | ⟨next, others⟩, last'⟩
      · simp [parts] at member
      · rw [parts] at member later
        rcases List.mem_cons.mp member with rfl | inside
        · have inside : next ∈ (joined rest last).1 := parts ▸ List.mem_cons_self
          obtain ⟨other, found, same⟩ := ih inside
          exact ⟨other, List.mem_cons_of_mem _ found, same⟩
        · exact later (List.mem_cons_of_mem _ inside)
    · rw [joined, if_neg escapes] at member
      rcases List.mem_cons.mp member with rfl | inside
      · exact ⟨piece, List.mem_cons_self, rfl⟩
      · exact later inside

/-- What a literal is read as gives the text of its pieces. -/
theorem gives_rendered (builtin : scope.tags = Tags.builtin) {pieces : List Piece}
    {last : List Char} {node : Node} (interpolates : Interpolates pieces last node)
    (there : ∀ piece ∈ pieces, data.get piece.path = .string (value piece.path)) :
    Gives (scope.render node) data (.string (String.ofList (rendered value pieces last))) := by
  rcases interpolates with ⟨empty, source, rfl⟩ | ⟨some, source, nodes, rfl, composes⟩
  · rw [rendered, if_pos empty, Scope.render]
    exact .pure _
  · rw [rendered, if_neg some, Scope.render]
    refine (prints_composed builtin composes fun piece member => ?_).serialize.bind (.pure _)
    obtain ⟨other, inside, same⟩ := exists_name_of_mem_joined member
    have found := there other inside
    rw [Piece.path, same] at found
    exact found

/-! ## When it is what it is meant to be -/

theorem rendered_of_free {pieces : List Piece} (free : Free pieces) (last : List Char) :
    rendered value pieces last = composed value pieces last := by
  rw [rendered, joined_of_free free]
  split
  · rename_i empty
    have none : pieces = [] := empty
    rw [none]
    rfl
  · rfl

theorem count_tagChars (piece : Piece) : piece.tagChars.count '#' = 1 := by
  have hashless : '#' ∉ (piece.name.bytes ++ [byte ')']).map fun b => Char.ofNat b.toNat := by
    intro member
    obtain ⟨b, inside, same⟩ := List.mem_map.mp member
    have ascii : b.toNat < 128 :=
      piece.tag_ascii (List.mem_cons_of_mem _ (List.mem_cons_of_mem _ inside))
    have hash : b = byte '#' := by rw [← toUInt8_ofNat ascii, same]
    subst hash
    simp only [List.mem_append, List.mem_singleton] at inside
    rcases inside with inside | clash
    · exact absurd (piece.name.inside _ inside) (by decide)
    · exact absurd clash (by decide)
  have chars : piece.tagChars =
      '#' :: '(' :: (piece.name.bytes ++ [byte ')']).map fun b => Char.ofNat b.toNat := rfl
  rw [chars, List.count_cons_self, List.count_cons_of_ne (by decide), List.count_eq_zero.mpr hashless]

theorem composed_joined_of_escapes {piece : Piece} (escapes : piece.Escapes) (rest : List Piece)
    (last : List Char) :
    composed value (joined (piece :: rest) last).1 (joined (piece :: rest) last).2 =
      piece.text.dropLast ++ (piece.tagChars ++
        composed value (joined rest last).1 (joined rest last).2) := by
  rw [joined_cons_of_escapes escapes]
  rcases joined rest last with ⟨_ | ⟨next, others⟩, last'⟩
  · simp only [composed, List.append_assoc]
  · simp only [composed, List.append_assoc]
    rfl

/-- A backslash that escapes a tag is no hash. -/
theorem count_dropLast {piece : Piece} (escapes : piece.Escapes) :
    piece.text.dropLast.count '#' = piece.text.count '#' := by
  obtain ⟨text, parts⟩ := List.getLast?_eq_some_iff.mp escapes
  rw [parts, List.dropLast_concat, List.count_append]
  rfl

section

variable {pieces : List Piece} {last : List Char}
  (hashless : ∀ piece ∈ pieces, '#' ∉ (Markup.escape (value piece.path)).toList)

include hashless

/-- Every tag that is text adds its hash. -/
theorem count_composed_joined :
    (composed value (joined pieces last).1 (joined pieces last).2).count '#' =
      (composed value pieces last).count '#' + pieces.countP fun piece => piece.Escapes := by
  induction pieces with
  | nil => rfl
  | cons piece rest ih =>
    have following := ih fun other member => hashless other (List.mem_cons_of_mem _ member)
    have clean := List.count_eq_zero.mpr (hashless piece List.mem_cons_self)
    by_cases escapes : piece.Escapes
    · rw [composed_joined_of_escapes escapes, List.countP_cons_of_pos (by simpa using escapes)]
      simp only [composed, List.count_append, following, count_tagChars, count_dropLast escapes,
        clean]
      omega
    · rw [joined, if_neg escapes, List.countP_cons_of_neg (by simpa using escapes)]
      simp only [composed, List.count_append, following, clean]
      omega

/-- Every tag that is printed takes its hash out of the text. -/
theorem count_plainChars :
    (plainChars pieces last).count '#' =
      (composed value pieces last).count '#' + pieces.length := by
  induction pieces with
  | nil => rfl
  | cons piece rest ih =>
    have following := ih fun other member => hashless other (List.mem_cons_of_mem _ member)
    have clean := List.count_eq_zero.mpr (hashless piece List.mem_cons_self)
    simp only [plainChars_cons, composed, List.count_append, following, count_tagChars, clean,
      List.length_cons]
    omega

/-- Over texts that hold no hash once they are escaped, a literal with a backslash before a tag is
something else than it is meant to be. -/
theorem rendered_ne_composed (escapes : ∃ piece ∈ pieces, piece.Escapes) :
    rendered value pieces last ≠ composed value pieces last := by
  intro same
  have hashes := congrArg (List.count '#') same
  obtain ⟨piece, member, slash⟩ := escapes
  rw [rendered] at hashes
  split at hashes
  · rw [count_plainChars hashless] at hashes
    have some := List.length_pos_of_mem member
    omega
  · rw [count_composed_joined hashless] at hashes
    have some : 0 < pieces.countP fun piece => piece.Escapes :=
      List.countP_pos_iff.mpr ⟨piece, member, by simpa using slash⟩
    omega

end

/-! ## From the bytes to the value -/

theorem parse_literal (file : String) (pieces : List Piece) (last : List Char) :
    ∃ source node, parse ⟨file, byte '#' :: byte '(' :: (literal pieces last ++ [byte ')'])⟩ =
      .ok [.tag source "" [node] none] ∧ Interpolates pieces last node := by
  have readable : Readable 7 (Interpolates pieces last) (literal pieces last) :=
    .of_string fun _ _ left _ there => reads_literal left pieces last there
  simpa using parse_print file blank_nil (readable.loosen (by decide)) blank_nil

/-- A literal is always parsed, and evaluates to a text over data with texts at its paths. It is
what it is meant to be as long as no text of it ends in a backslash right before a tag, and is not,
over texts that hold no hash once they are escaped, when one does. -/
theorem render_literal (file : String) (pieces : List Piece) (last : List Char) :
    ∃ source node, parse ⟨file, byte '#' :: byte '(' :: (literal pieces last ++ [byte ')'])⟩ =
        .ok [.tag source "" [node] none] ∧
      ∀ (scope : Scope) (data : Value) (value : Path → String), scope.tags = Tags.builtin →
        (∀ piece ∈ pieces, data.get piece.path = .string (value piece.path)) →
          (scope.render node).runOn data =
              .done (.ok (.string (String.ofList (rendered value pieces last))), data) ∧
            (Free pieces → rendered value pieces last = composed value pieces last) ∧
            ((∃ piece ∈ pieces, piece.Escapes) →
              (∀ piece ∈ pieces, '#' ∉ (Markup.escape (value piece.path)).toList) →
                rendered value pieces last ≠ composed value pieces last) := by
  obtain ⟨source, node, parsed, interpolates⟩ := parse_literal file pieces last
  refine ⟨source, node, parsed, fun scope data value builtin there => ?_⟩
  refine ⟨gives_rendered builtin interpolates there, fun free => rendered_of_free free last, ?_⟩
  exact fun escapes hashless => rendered_ne_composed hashless escapes

private def single : Identifier where
  bytes := [byte 'x']
  opens := by decide
  inside := by decide
  notTrue := by decide
  notFalse := by decide

private theorem get_single {pieces : List Piece} (one : ∀ piece ∈ pieces, piece.name = single) :
    ∀ piece ∈ pieces, (Value.map [("x", .string "v")]).get piece.path = .string "v" := by
  intro piece member
  have name : single.text = "x" := by rfl
  rw [Piece.path, one piece member, name]
  rfl

/-- A backslash before another byte is one backslash. -/
theorem render_literal_dot :
    ∃ source node, parse ⟨"page", "#(\"\\\\.#(x)\")".toList.map byte⟩ =
        .ok [.tag source "" [node] none] ∧
      (Scope.render ⟨Tags.builtin, .unavailable, 0⟩ node).runOn (.map [("x", .string "v")]) =
        .done (.ok (.string "\\.v"), .map [("x", .string "v")]) := by
  have bytes : "#(\"\\\\.#(x)\")".toList.map byte =
      byte '#' :: byte '(' :: (literal [⟨['\\', '.'], single⟩] [] ++ [byte ')']) := by rfl
  obtain ⟨source, node, parsed, evaluates⟩ := render_literal "page" [⟨['\\', '.'], single⟩] []
  obtain ⟨ended, holds, -⟩ := evaluates ⟨Tags.builtin, .unavailable, 0⟩ _ (fun _ => "v") rfl
    (get_single (by simp))
  rw [holds (by simp [Free, Piece.Escapes])] at ended
  exact ⟨source, node, bytes ▸ parsed, ended⟩

/-- A backslash before a tag is not always one backslash. -/
theorem not_render_literal :
    ¬ ∀ (pieces : List Piece) (last : List Char) (scope : Scope) (data : Value)
        (value : Path → String), scope.tags = Tags.builtin →
      (∀ piece ∈ pieces, data.get piece.path = .string (value piece.path)) →
      ∃ source node,
        parse ⟨"page", byte '#' :: byte '(' :: (literal pieces last ++ [byte ')'])⟩ =
            .ok [.tag source "" [node] none] ∧
          (scope.render node).runOn data =
            .done (.ok (.string (String.ofList (composed value pieces last))), data) := by
  intro always
  have there := @get_single [⟨['\\'], single⟩] (by simp)
  obtain ⟨source, node, parsed, meant⟩ := always _ [] ⟨Tags.builtin, .unavailable, 0⟩ _
    (fun _ => "v") rfl there
  obtain ⟨source', node', parsed', interpolates⟩ := parse_literal "page" [⟨['\\'], single⟩] []
  rw [parsed] at parsed'
  obtain ⟨-, rfl⟩ : source = source' ∧ node = node' := by simpa using parsed'
  have ended : Gives (Scope.render ⟨Tags.builtin, .unavailable, 0⟩ node)
      (.map [("x", .string "v")]) (.string (String.ofList (rendered (fun _ => "v") _ []))) :=
    gives_rendered rfl interpolates there
  rw [Gives, meant] at ended
  have same : String.ofList (composed (fun _ => "v") [⟨['\\'], single⟩] []) =
      String.ofList (rendered (fun _ => "v") [⟨['\\'], single⟩] []) := by simpa using ended
  have escapes : ∃ piece ∈ [Piece.mk ['\\'] single], piece.Escapes :=
    ⟨_, List.mem_singleton_self _, by simp [Piece.Escapes]⟩
  refine rendered_ne_composed ?_ escapes (String.ofList_injective same).symm
  rintro piece -
  decide

end Stencil
