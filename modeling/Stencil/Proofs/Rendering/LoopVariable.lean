import Stencil.Proofs.Grammar.Kit.Rules
import Stencil.Proofs.Places
import Stencil.Proofs.Rendering.Isolation
import Stencil.Proofs.Rendering.Sparing
import Stencil.Proofs.Value.Entries

/-! # What the variable of a loop denotes

The name of the variable comes through a constant of the loop into the bindings of each item, and
the identifier in the body comes through a path that is read from its text. Both arrive at one
entry of the data, so the identifier is the item, whatever lies around, until the body writes to
the name. The bindings that every loop makes are written after the variable, though: a variable
that is named like one of them never denotes the item.
-/

namespace Stencil

open Evaluation (Ensures)
open Routine (Outcome)

namespace Grammar.Kit

variable {buffer : Buffer}

/-! ## Names -/

/-- The source of a run covers the bytes of the run. -/
theorem bytes_source_skip (p : UInt8 → Bool) (c : Cursor buffer) :
    ((c.skip p).source c.position).bytes = c.run p := by
  rw [Cursor.skip, Cursor.bytes_source]
  exact (List.prefix_iff_eq_take.mp (List.takeWhile_prefix p)).symm

/-- The name of the variable of a loop is the text of a constant, which covers its bytes. -/
theorem ensures_loop (start : Position) (c : Cursor buffer) :
    Ensures (loop start c) fun value _ => ∃ source place listing body,
      value = .loop source (.literal place (.string (asciiText place.bytes))) listing body ∧
        place.bytes ≠ [] ∧ ∀ b ∈ place.bytes, isNameByte b = true := by
  rw [loop]
  refine (Ensures.any _).bind fun ⟨_, opened, progress⟩ _ => ?_
  dsimp only
  rcases blanks opened with ⟨_, first, within⟩
  have covered := bytes_source_skip isNameByte first
  rcases parts : run isNameByte first with ⟨name, last, after⟩
  obtain rfl : first.run isNameByte = name := congrArg Reading.value parts
  obtain rfl : first.skip isNameByte = last := congrArg Reading.next parts
  dsimp only
  split
  · exact .of_error _
  rename_i some
  rcases blanks (first.skip isNameByte) with ⟨_, word, behind⟩
  dsimp only
  split
  · refine (Ensures.any _).bind fun ⟨data, next, below⟩ _ => ?_
    refine (Ensures.any _).bind fun ⟨_, closed, shut⟩ _ => ?_
    refine (Ensures.any _).bind fun ⟨block, last, inside⟩ _ => ?_
    refine .of_ok ⟨_, _, _, _, by rw [covered], ?_⟩
    rw [covered]
    exact ⟨by simpa using some, fun b member => List.mem_takeWhile_imp member⟩
  · exact .of_error _

/-- The grammar reads the bytes as an identifier, which is the node. -/
def Spells (bytes : List UInt8) (node : Node) : Prop :=
  ∃ (source : Source) (path : Path) (buffer : Buffer) (c : Cursor buffer),
    node = .identifier source path ∧ source.bytes = bytes ∧
      c.rest.head?.any opensWord = true ∧ (atom c).map Reading.value = .ok node

/-- An identifier is the path that its bytes write, and they open a word. -/
theorem Spells.identifier {bytes : List UInt8} {node : Node} (spells : Spells bytes node) :
    bytes.head?.any opensWord = true ∧
      ∃ source, node = .identifier source (Path.parse (asciiText bytes)) := by
  obtain ⟨source, path, buffer, c, rfl, rfl, opens, read⟩ := spells
  have left : c.rest ≠ [] := by rintro empty; simp [empty] at opens
  have covered := c.bytes_source ((c.rest.tail.takeWhile isWordByte).length + 1)
  rw [atom_eq_word left opens, word] at read
  unfold wordBytes at read
  dsimp only at read
  split at read
  · -- A parenthesis makes a call of the word.
    cases given : arguments (c.advance ((c.rest.tail.takeWhile isWordByte).length + 1)) with
    | error why =>
      rw [given] at read
      cases read
    | ok parameters =>
      rw [given] at read
      cases read
  · have value := Except.ok.inj read
    dsimp only [wordNode] at value
    split at value
    · cases value
    split at value
    · cases value
    · obtain ⟨rfl, rfl⟩ := Node.identifier.inj value
      rw [covered]
      refine ⟨?_, _, rfl⟩
      rw [List.head?_take, if_neg (Nat.succ_ne_zero _)]
      exact opens

theorem eq_byte_of_ofNat {b : UInt8} {letter : Char} (name : isNameByte b = true)
    (same : Char.ofNat b.toNat = letter) : b = byte letter := by
  have ascii : b.toNat < 128 := toNat_of_isWordByte (by rw [isWordByte, name, Bool.true_or])
  rw [byte, ← same, toUInt8_ofNat ascii]

/-- A word without a period leads to the entry under its text. -/
theorem segment_of_name {bytes : List UInt8} (opens : bytes.head?.any opensWord = true)
    (name : ∀ b ∈ bytes, isNameByte b = true) : ∃ segment,
      Path.parse (asciiText bytes) = ⟨[segment]⟩ ∧ segment.name = asciiText bytes := by
  have spelled : (asciiText bytes).toList = bytes.map fun b => Char.ofNat b.toNat :=
    String.toList_ofList
  have some : asciiText bytes ≠ "" := by
    intro empty
    rw [empty] at spelled
    have none : bytes = [] := List.map_eq_nil_iff.mp spelled.symm
    simp [none] at opens
  have whole : '.' ∉ (asciiText bytes).toList := by
    rw [spelled]
    intro member
    obtain ⟨b, inside, same⟩ := List.mem_map.mp member
    have period := name b inside
    rw [eq_byte_of_ofNat period same] at period
    exact absurd period (by decide)
  have plain (place : Nat) : ¬ Segment.Padded (asciiText bytes) place := by
    rintro ⟨-, zeros, written⟩
    obtain ⟨b, more, rfl⟩ := List.exists_cons_of_ne_nil (show bytes ≠ [] by
      rintro rfl
      cases opens)
    rw [spelled, List.map_cons, List.replicate_succ, List.cons_append] at written
    have zero := eq_byte_of_ofNat (name b List.mem_cons_self) (List.cons.inj written).1
    have digit : opensWord (byte '0') = true := by simpa [zero] using opens
    exact absurd digit (by decide)
  exact ⟨_, Path.parse_component some whole, Segment.name_of_not_padded plain⟩

end Grammar.Kit

/-! ## Places in a body -/

/-- The nodes that are evaluated for a node on its own data, one after the other. Conditions are
evaluated as long as none is truthy. -/
def Node.operands : Node → List Node
  | interpolated _ nodes => nodes
  | infixOp _ _ left right => [left, right]
  | negation _ operand => [operand]
  | conditional _ condition _ others => condition :: others.map Prod.fst
  | loop _ key data _ => [key, data]
  | embed _ path => [path]
  | tag _ _ parameters _ => parameters
  | _ => []

namespace Scope

variable {scope : Scope} {name : String}

/-- While nodes are evaluated on some data, a node comes to be evaluated on others, and nothing has
written to the entry under a name in between. -/
inductive Arrives (scope : Scope) (name : String) : List Node → Value → Node → Value → Prop
  | here (node : Node) (rest : List Node) (data : Value) :
      Arrives scope name (node :: rest) data node data
  | later {node target : Node} {rest : List Node} {data left there result : Value}
      (passed : Outcome (fun _ => True) ((scope.render node).runOn data) (.ok result, left))
      (unwritten : left.field? name = data.field? name)
      (onward : Arrives scope name rest left target there) :
      Arrives scope name (node :: rest) data target there
  | operand {node target : Node} {rest : List Node} {data there : Value}
      (inside : Arrives scope name node.operands data target there) :
      Arrives scope name (node :: rest) data target there
  | branch {node target : Node} {rest body : List Node} {data left there : Value}
      (decided : Outcome (fun _ => True) ((scope.plan node).runOn data) (.ok (.once body), left))
      (unwritten : left.field? name = data.field? name)
      (inside : Arrives scope name body (left.derive []) target there) :
      Arrives scope name (node :: rest) data target there
  | item {node target : Node} {rest body : List Node} {data left there item : Value} {key : String}
      {items : List Value} {index : Nat}
      (decided : Outcome (fun _ => True) ((scope.plan node).runOn data)
        (.ok (.each body key items), left))
      (unwritten : left.field? name = data.field? name) (member : items[index]? = some item)
      (unbound : name ∉ (loopBindings key items.length index item).map Prod.fst)
      (inside : Arrives scope name body (left.derive (loopBindings key items.length index item))
        target there) : Arrives scope name (node :: rest) data target there
  | tagged {source : Source} {tag : String} {parameters body rest : List Node} {target : Node}
      {data left there : Value} (unwritten : left.field? name = data.field? name)
      (inside : Arrives scope name body left target there) :
      Arrives scope name (.tag source tag parameters (some body) :: rest) data target there

/-- What arrives at an identifier in a body has the value under its name that the body began with.
-/
theorem Arrives.field? {nodes : List Node} {data there : Value} {target : Node}
    (arrives : scope.Arrives name nodes data target there) :
    there.field? name = data.field? name := by
  induction arrives with
  | here => rfl
  | later _ unwritten _ ih => exact ih.trans unwritten
  | operand _ ih => exact ih
  | branch _ unwritten _ ih =>
    rw [ih, Value.field?_derive, unwritten]
    rfl
  | item _ unwritten _ unbound _ ih =>
    rw [ih, Value.field?_derive, unwritten, List.lookup_eq_none_iff.mpr]
    · rfl
    · intro binding member
      rw [List.mem_reverse] at member
      have other : name ≠ binding.1 := fun same => unbound (List.mem_map.mpr ⟨_, member, same.symm⟩)
      simpa using other
  | tagged unwritten _ ih => exact ih.trans unwritten

/-- A loop runs its body under the name that its constant holds, if at all. -/
theorem plan_named (source place : Source) (name : String) (listing : Node) (body : List Node) :
    (scope.plan (.loop source (.literal place (.string name)) listing body)).Ensures
      fun plan => plan = .nothing ∨ ∃ items, plan = .each body name items := by
  unfold plan iterate
  refine (resolved_literal place name).bind ?_
  rintro _ rfl
  refine (Ensures.any _).bind fun value _ => ?_
  split
  · exact .pure (.inl rfl)
  · exact .pure (.inr ⟨_, rfl⟩)
  · exact .throw _

end Scope

/-! ## Meanings -/

/-- What the variable of a loop denotes for the item at a place of so many: the item, unless the
variable is named like one of the bindings that every loop makes. -/
def loopMeaning (name : String) (count index : Nat) (item : Value) : Value :=
  if name = "isLast" then .bool (index + 1 == count)
  else if name = "isFirst" then .bool (index == 0)
  else if name = "index" then .int (Int64.ofNat index)
  else item

/-- Of the bindings of an item the last under a name counts. -/
theorem lookup_loopBindings (name : String) (count index : Nat) (item : Value) :
    (loopBindings name count index item).reverse.lookup name =
      some (loopMeaning name count index item) := by
  have written : (loopBindings name count index item).reverse =
      [("isLast", .bool (index + 1 == count)), ("isFirst", .bool (index == 0)),
        ("index", .int (Int64.ofNat index)), (name, item)] := rfl
  rw [written, loopMeaning]
  split
  · rename_i last
    rw [last, List.lookup_cons_self]
  rename_i last
  rw [lookup_cons_ne last]
  split
  · rename_i first
    rw [first, List.lookup_cons_self]
  rename_i first
  rw [lookup_cons_ne first]
  split
  · rename_i counter
    rw [counter, List.lookup_cons_self]
  · rename_i counter
    rw [lookup_cons_ne counter, List.lookup_cons_self]

/-- A path of one name gives the value under it. -/
theorem Scope.render_name {scope : Scope} {source : Source} {segment : Segment}
    {data value : Value} (there : data.field? segment.name = some value) :
    (scope.render (.identifier source ⟨[segment]⟩)).Gives data value := by
  have found : data.get ⟨[segment]⟩ = value := by
    cases data with
    | map entries =>
      have entry : entries.lookup segment.name = some value := there
      change ((entries.lookup segment.name).bind Option.some).getD .null = value
      rw [entry]
      rfl
    | _ => cases there
  rw [Scope.render]
  refine Evaluation.Gives.bind (a := data) rfl ?_
  rw [found]
  exact .pure value

open Grammar (Reading)
open Grammar.Kit (Spells)

section Law

variable {buffer : Buffer} {start : Position} {c : Cursor buffer} {node : Node}

/-- The variable of a loop denotes the item, except where it is named like a binding that every loop
makes, and then it denotes that. In any loop that is read, and in any scope, the body runs under the
name of the variable; wherever the identifier with just these bytes comes to be evaluated for an
item, it is what the variable denotes, as long as nothing has written to the name. What writes
along no path that begins with the name leaves it alone, and of the tags there are only the one
that assigns can write at all. -/
theorem loop_variable (read : (Grammar.Kit.loop start c).map Reading.value = .ok node) :
    ∃ source place name listing body,
      node = .loop source (.literal place (.string name)) listing body ∧ place.bytes ≠ [] ∧
      name = Grammar.asciiText place.bytes ∧ ∀ scope : Scope,
        scope.render node = scope.plan node >>= scope.carryOut ∧
        (∀ data plan left, Outcome (fun _ => True) ((scope.plan node).runOn data) (.ok plan, left) →
          plan = .nothing ∨ ∃ items, plan = .each body name items) ∧
        (∀ (around : Value) (items : List Value) (index : Nat) (item : Value),
          items[index]? = some item → ∀ inside there, Spells place.bytes inside →
          scope.Arrives name body (around.derive (loopBindings name items.length index item))
            inside there →
          (scope.render inside).Gives there (loopMeaning name items.length index item)) ∧
        (∀ inside, scope.Sparing name inside → (scope.render inside).Spares name) ∧
        Tags.builtin.Each fun handler => handler = Tags.assign ∨ handler.Spares name := by
  obtain ⟨r, ok, rfl⟩ : ∃ r, Grammar.Kit.loop start c = .ok r ∧ r.value = node := by
    cases ok : Grammar.Kit.loop start c with
    | error why =>
      rw [ok] at read
      cases read
    | ok r =>
      rw [ok] at read
      exact ⟨r, rfl, Except.ok.inj read⟩
  obtain ⟨source, place, listing, body, whole, some, own⟩ :=
    Grammar.Kit.ensures_loop start c r ok
  have bodied : r.value.runsBodies = true := by rw [whole]; rfl
  refine ⟨source, place, _, listing, body, whole, some, rfl, fun scope =>
    ⟨scope.render_eq_plan bodied, ?_, ?_, fun inside => Scope.Sparing.spares,
      Tags.builtin_spares⟩⟩
  · rw [whole]
    exact Scope.plan_named source place _ listing body
  · intro around items index item member inside there spells arrives
    obtain ⟨opens, mention, rfl⟩ := spells.identifier
    obtain ⟨segment, path, text⟩ := Grammar.Kit.segment_of_name opens own
    have entry := arrives.field?
    rw [Value.field?_derive, lookup_loopBindings, Option.some_or] at entry
    rw [path]
    exact Scope.render_name (text.symm ▸ entry)

end Law

open Grammar (byte)

/-- A loop, from its parenthesis on, that prints its variable. -/
private def printing (name : List UInt8) : Buffer :=
  ⟨"t", byte '(' :: name ++ " in a) \x7b#(".toList.map byte ++ name ++ ")\x7d".toList.map byte⟩

private def printed (name : List UInt8) (start stop : Nat) : Source :=
  ⟨"t", 0, start, start, stop, (printing name).text⟩

private def mention (name : List UInt8) (text : String) : Node :=
  .identifier (printed name 16 21) ⟨[.key text]⟩

private def printingLoop (name : List UInt8) (text : String) : Node :=
  .loop (printed name 0 23) (.literal (printed name 1 6) (.string text))
    (.identifier (printed name 10 11) ⟨[.key "a"]⟩)
    [.tag (printed name 14 22) "" [mention name text] none]

private def atMention (name : List UInt8) : Cursor (printing name) :=
  (Cursor.start (printing name)).advance 16

private theorem spells_mention {name : List UInt8} {text : String}
    (bytes : (printed name 16 21).bytes = name) (left : (atMention name).rest ≠ [])
    (opens : (atMention name).rest.head?.any Grammar.Kit.opensWord = true)
    (read : (Grammar.Kit.word (atMention name) left).map Reading.value = .ok (mention name text)) :
    Spells name (mention name text) := by
  rw [← Grammar.Kit.atom_eq_word left opens] at read
  exact ⟨_, _, _, _, rfl, bytes, opens, read⟩

private def fruit : List UInt8 := "fruit".toList.map byte

/-- The second item of two is what the variable denotes. -/
theorem loop_variable_fruit :
    let scope : Scope := ⟨Tags.builtin, .unavailable, 0⟩
    let items : List Value := [.string "apple", .string "plum"]
    let data := (Value.map []).derive (loopBindings "fruit" items.length 1 (.string "plum"))
    (Grammar.Kit.loop .origin (Cursor.start (printing fruit))).map Reading.value =
        .ok (printingLoop fruit "fruit") ∧
      items[1]? = some (.string "plum") ∧ Spells fruit (mention fruit "fruit") ∧
      scope.Arrives "fruit" [.tag (printed fruit 14 22) "" [mention fruit "fruit"] none] data
        (mention fruit "fruit") data ∧
      (scope.render (mention fruit "fruit")).Gives data (.string "plum") := by
  intro scope items data
  have read : (Grammar.Kit.loop .origin (Cursor.start (printing fruit))).map Reading.value =
      .ok (printingLoop fruit "fruit") := by cbv
  have bytes : (printed fruit 16 21).bytes = fruit := by decide
  have first : (printed fruit 1 6).bytes = fruit := by decide
  have spells : Spells fruit (mention fruit "fruit") :=
    spells_mention bytes (by decide) (by decide) (by cbv)
  have arrives : scope.Arrives "fruit"
      [.tag (printed fruit 14 22) "" [mention fruit "fruit"] none] data (mention fruit "fruit")
      data := .operand (.here _ _ _)
  refine ⟨read, rfl, spells, arrives, ?_⟩
  obtain ⟨source, place, name, listing, body, whole, -, -, all⟩ := loop_variable read
  obtain ⟨-, key, -, same⟩ := Node.loop.inj whole
  obtain ⟨rfl, text⟩ := Node.literal.inj key
  obtain rfl := Literal.string.inj text
  rw [first] at all
  subst same
  exact (all scope).2.2.1 (.map []) items 1 _ rfl _ _ spells arrives

private def counter : List UInt8 := "index".toList.map byte

/-- Not every variable denotes the item. -/
theorem not_loop_variable :
    ¬ ∀ (buffer : Buffer) (start : Position) (c : Cursor buffer) (source place : Source)
      (name : String) (listing : Node) (body : List Node),
      (Grammar.Kit.loop start c).map Reading.value =
        .ok (.loop source (.literal place (.string name)) listing body) →
      ∀ (scope : Scope) (around : Value) (items : List Value) (index : Nat) (item : Value),
        items[index]? = some item → ∀ inside there, Spells place.bytes inside →
          scope.Arrives name body (around.derive (loopBindings name items.length index item))
            inside there → (scope.render inside).Gives there item := by
  intro claimed
  have read : (Grammar.Kit.loop .origin (Cursor.start (printing counter))).map Reading.value =
      .ok (printingLoop counter "index") := by cbv
  have bytes : (printed counter 16 21).bytes = counter := by decide
  have first : (printed counter 1 6).bytes = counter := by decide
  have spells : Spells counter (mention counter "index") :=
    spells_mention bytes (by decide) (by decide) (by cbv)
  have given := claimed _ _ _ _ _ _ _ _ read ⟨Tags.builtin, .unavailable, 0⟩ (.map [])
    [.string "a"] 0 (.string "a") rfl _ _ (first.symm ▸ spells) (.operand (.here _ _ _))
  have entry : ((Value.map []).derive (loopBindings "index" 1 0 (.string "a"))).field?
      (Segment.key "index").name = some (.int (Int64.ofNat 0)) := rfl
  have clash := given.symm.trans (Scope.render_name entry)
  cases clash

end Stencil
