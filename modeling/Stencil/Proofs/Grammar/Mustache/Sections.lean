import Mathlib
import Stencil.Proofs.Grammar.Mustache.Spans

/-! # Sections are a stack

A template is read as pieces from left to right. A stack of the sections that are open says what to
do with each of them, and the tree is put together on the way. The grammar builds a section by a
recursion that knows the name of the innermost one only; it gives the same tree, and fails in the
same way.
-/

namespace Stencil.Grammar.Mustache

variable {buffer : Buffer}

/-! ## What the grammar does with a piece -/

section

variable {open? : Option Path} {c next : Cursor buffer} {left : c.rest ≠ []} {start : Position}
  {source : Source} {path opened : Path} {below : next.remaining < c.remaining}

theorem nodes_atEnd (atEnd : c.rest = []) : nodes open? c = .ok ⟨[], c, Nat.lt_succ_self _⟩ := by
  rw [nodes, dif_pos atEnd]

theorem nodes_malformed {why : Error} (found : piece c left = .error why) :
    nodes open? c = .error why := by
  rw [nodes, dif_neg left, found]
  rfl

theorem nodes_node {node : Node} (found : piece c left = .ok ⟨.node node, next, below⟩) :
    nodes open? c = nodes open? next >>= fun others =>
      .ok ((others.map (node :: ·)).widen (Nat.succ_le_succ (Nat.le_of_lt below))) := by
  rw [nodes, dif_neg left, found]
  rfl

/-- An opening is read with the nodes up to its close, and then those behind it. -/
theorem nodes_opening (found : piece c left = .ok ⟨.opening start source path, next, below⟩) :
    nodes open? c = nodes (some path) next >>= fun block => nodes open? block.next >>= fun others =>
      .ok ((others.map (.conditional (block.next.source start) (.identifier source path)
        block.value [] :: ·)).widen (by have := block.below; omega)) := by
  rw [nodes, dif_neg left, found]
  rfl

/-- Without an open section a close is a fault. -/
theorem nodes_unmatched (found : piece c left = .ok ⟨.closing source path, next, below⟩) :
    nodes none c = .error (.parse (.unmatchedClose path) source) := by
  rw [nodes, dif_neg left, found]
  rfl

/-- The close of the open section ends its nodes. -/
theorem nodes_closed (found : piece c left = .ok ⟨.closing source path, next, below⟩) :
    nodes (some path) c = .ok ⟨[], next, Nat.lt_succ_of_lt below⟩ := by
  rw [nodes, dif_neg left, found]
  exact if_pos rfl

/-- A close of another section goes, and the nodes go on. -/
theorem nodes_dropped (other : path ≠ opened)
    (found : piece c left = .ok ⟨.closing source path, next, below⟩) :
    nodes (some opened) c = nodes (some opened) next >>= fun others =>
      .ok (others.widen (Nat.succ_le_succ (Nat.le_of_lt below))) := by
  rw [nodes, dif_neg left, found]
  exact if_neg other

end

/-! ## The stack -/

/-- The pieces from a cursor on, each with the cursor behind it, and the error of the first one that
is malformed. -/
def pieces (c : Cursor buffer) : List (Piece × Cursor buffer) × Option Error :=
  if left : c.rest = [] then ([], none)
  else match piece c left with
    | .error why => ([], some why)
    | .ok ⟨read, next, _⟩ =>
      let (others, malformed) := pieces next
      ((read, next) :: others, malformed)
termination_by c.remaining

/-- A section that is open: where it starts, its name, and the nodes in front of it. -/
structure OpenSection where
  start : Position
  place : Source
  path : Path
  before : List Node

def OpenSection.node (s : OpenSection) (body : List Node) (stop : Cursor buffer) : Node :=
  .conditional (stop.source s.start) (.identifier s.place s.path) body []

/-- The nodes of the innermost open body so far, and the open sections, innermost first. -/
structure Stack where
  body : List Node
  sections : List OpenSection

namespace Stack

/-- What a piece does. A close ends the innermost section when it names it, and nothing else. -/
def step (stack : Stack) (piece : Piece × Cursor buffer) : Except Error Stack :=
  match piece.1, stack.sections with
  | .node node, _ => .ok { stack with body := stack.body ++ [node] }
  | .opening start place path, sections => .ok ⟨[], ⟨start, place, path, stack.body⟩ :: sections⟩
  | .closing source path, [] => .error (.parse (.unmatchedClose path) source)
  | .closing _ path, innermost :: outer =>
    if path = innermost.path then
      .ok ⟨innermost.before ++ [innermost.node stack.body piece.2], outer⟩
    else .ok stack

/-- The nodes when all open sections end at a cursor. -/
def close (stop : Cursor buffer) : List Node → List OpenSection → List Node
  | body, [] => body
  | body, innermost :: outer => close stop (innermost.before ++ [innermost.node body stop]) outer

def finish (stack : Stack) (c : Cursor buffer) : Except Error (List Node) := do
  let (read, malformed) := pieces c
  let stack ← read.foldlM step stack
  match malformed with
  | some why => .error why
  | none => return close (c.advance c.remaining) stack.body stack.sections

/-! ## Piece by piece -/

variable {stack : Stack} {c next : Cursor buffer} {body : List Node} {innermost : OpenSection}
  {outer : List OpenSection}

theorem step_closed {source : Source} :
    step ⟨body, innermost :: outer⟩ (.closing source innermost.path, next) =
      .ok ⟨innermost.before ++ [innermost.node body next], outer⟩ := if_pos rfl

/-- A close of another section than the innermost one goes. -/
theorem step_dropped {source : Source} {path : Path} (other : path ≠ innermost.path) :
    step ⟨body, innermost :: outer⟩ (.closing source path, next) = .ok ⟨body, innermost :: outer⟩ :=
  if_neg other

/-- At the end all sections that are open are closed. -/
theorem finish_atEnd (atEnd : c.rest = []) :
    stack.finish c = .ok (close c stack.body stack.sections) := by
  have here : c.advance c.remaining = c := Cursor.eq_of_remaining (by
    rw [Cursor.remaining_advance, Cursor.remaining, atEnd]
    rfl)
  unfold finish pieces
  rw [dif_pos atEnd, here]
  rfl

theorem finish_malformed {left : c.rest ≠ []} {why : Error} (read : piece c left = .error why) :
    stack.finish c = .error why := by
  unfold finish pieces
  rw [dif_neg left, read]
  rfl

/-- A piece is one step of the stack machine. -/
theorem finish_piece {left : c.rest ≠ []} {reading : Reading buffer c.remaining Piece}
    (read : piece c left = .ok reading) :
    stack.finish c = stack.step (reading.value, reading.next) >>= (·.finish reading.next) := by
  have last : c.advance c.remaining = reading.next.advance reading.next.remaining :=
    Cursor.eq_of_remaining (by rw [Cursor.remaining_advance, Cursor.remaining_advance]; omega)
  unfold finish
  rw [pieces, dif_neg left, read, last]
  dsimp only
  rw [List.foldlM_cons]
  cases stack.step (reading.value, reading.next) <;> rfl

/-- The nodes of what is left of a template when the innermost body ends before it. -/
def ended (body : List Node) (sections : List OpenSection) (stop : Cursor buffer) :
    Except Error (List Node) :=
  match sections with
  | [] => .ok body
  | innermost :: outer => finish ⟨innermost.before ++ [innermost.node body stop], outer⟩ stop

/-- The grammar reads the rest of the innermost body, and the stack goes on where it ends. -/
theorem finish_nodes (body : List Node) (sections : List OpenSection) (c : Cursor buffer) :
    finish ⟨body, sections⟩ c = nodes (sections.head?.map OpenSection.path) c >>= fun rest =>
      ended (body ++ rest.value) sections rest.next := by
  by_cases left : c.rest = []
  · rw [nodes_atEnd left, finish_atEnd left]
    change _ = ended (body ++ []) sections c
    rw [List.append_nil]
    cases sections with
    | nil => rfl
    | cons innermost outer =>
      have closed : finish ⟨innermost.before ++ [innermost.node body c], outer⟩ c = _ :=
        finish_atEnd left
      exact closed.symm
  cases found : piece c left with
  | error why =>
    rw [finish_malformed found, nodes_malformed found]
    rfl
  | ok reading =>
    obtain ⟨read, next, below⟩ := reading
    rw [finish_piece found]
    cases read with
    | node node =>
      change finish ⟨body ++ [node], sections⟩ next = _
      rw [finish_nodes (body ++ [node]) sections next, nodes_node found]
      cases nodes (sections.head?.map OpenSection.path) next with
      | error why => rfl
      | ok others =>
        change ended (body ++ [node] ++ others.value) _ _ = _
        rw [List.append_assoc]
        rfl
    | opening start place path =>
      change finish ⟨[], ⟨start, place, path, body⟩ :: sections⟩ next = _
      rw [finish_nodes [] (⟨start, place, path, body⟩ :: sections) next, nodes_opening found]
      change nodes (some path) next >>= _ = _
      cases nodes (some path) next with
      | error why => rfl
      | ok block =>
        obtain ⟨inner, after, inside⟩ := block
        let node := OpenSection.node ⟨start, place, path, body⟩ inner after
        change finish ⟨body ++ [node], sections⟩ after = _
        rw [finish_nodes (body ++ [node]) sections after]
        change _ = (nodes (sections.head?.map OpenSection.path) after >>= _) >>= _
        cases nodes (sections.head?.map OpenSection.path) after with
        | error why => rfl
        | ok others =>
          change ended (body ++ [node] ++ others.value) _ _ = _
          rw [List.append_assoc]
          rfl
    | closing source path =>
      cases sections with
      | nil =>
        change _ = nodes none c >>= _
        rw [nodes_unmatched found]
        rfl
      | cons innermost outer =>
        change step ⟨body, innermost :: outer⟩ (.closing source path, next) >>= _ =
          nodes (some innermost.path) c >>= _
        by_cases same : path = innermost.path
        · subst same
          rw [nodes_closed found, step_closed]
          change finish _ next = ended (body ++ []) (innermost :: outer) next
          rw [List.append_nil]
          rfl
        · rw [nodes_dropped same found, step_dropped same]
          change finish ⟨body, innermost :: outer⟩ next = _
          rw [finish_nodes body (innermost :: outer) next]
          change nodes (some innermost.path) next >>= _ = _
          cases nodes (some innermost.path) next <;> rfl
termination_by c.remaining

end Stack

/-- The tree of a template, built with a stack. -/
def assemble (buffer : Buffer) : Except Error (List Node) :=
  Stack.finish ⟨[], []⟩ (Cursor.start buffer)

theorem parse_eq_assemble (buffer : Buffer) : parse buffer = assemble buffer := by
  unfold assemble parse
  rw [Stack.finish_nodes [] [] (Cursor.start buffer)]
  change nodes none (Cursor.start buffer) >>= _ = nodes none (Cursor.start buffer) >>= _
  cases nodes none (Cursor.start buffer) <;> rfl

/-- The grammar gives the tree that the stack builds, or the error that it meets. No part of the
tree is an end that was left over, and its nodes cover the template. -/
theorem parse_sections (buffer : Buffer) : parse buffer = assemble buffer ∧
    ∀ nodes, parse buffer = .ok nodes →
      (∀ node ∈ nodes, node.Everywhere fun part =>
        ∀ source parameters body, part ≠ .tag source "_end" parameters body) ∧
      Tiled 0 nodes buffer.text.length := by
  refine ⟨parse_eq_assemble buffer, fun nodes parsed => ?_⟩
  obtain ⟨next, covered⟩ := parse_covered parsed
  obtain ⟨atEnd, tiled⟩ := covered.whole rfl
  refine ⟨fun node member => (covered.each node member).everywhere.imp ?_,
    next.offset_at_end atEnd ▸ tiled⟩
  rintro part (made | ⟨place, path, rfl, -⟩) source parameters body
  · cases made <;> simp
  · exact nofun

private def leftOpen : Buffer := ⟨"t", "\x7b\x7b#a\x7d\x7dx\x7b\x7b/b\x7d\x7dy".toList.map byte⟩

/-- The tree of the template: the close has gone, and the section ends with the text. -/
private def leftOpenNodes : List Node :=
  [.conditional ⟨"t", 0, 0, 0, 14, leftOpen.text⟩
    (.identifier ⟨"t", 0, 3, 3, 4, leftOpen.text⟩ ⟨[.key "a"]⟩)
    [.raw ⟨"t", 0, 6, 6, 7, leftOpen.text⟩ [byte 'x'],
      .raw ⟨"t", 0, 13, 13, 14, leftOpen.text⟩ [byte 'y']] []]

/-- The stack drops the close and ends the section at the end of the text. -/
theorem parse_sections_leftOpen : assemble leftOpen = .ok leftOpenNodes ∧
    (∀ node ∈ leftOpenNodes, node.Everywhere fun part =>
      ∀ source parameters body, part ≠ .tag source "_end" parameters body) ∧
    Tiled 0 leftOpenNodes 14 := by
  have parsed : parse leftOpen = .ok leftOpenNodes := by cbv
  obtain ⟨same, each⟩ := parse_sections leftOpen
  exact ⟨same ▸ parsed, each _ parsed⟩

end Stencil.Grammar.Mustache
