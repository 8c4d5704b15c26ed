import TaskMemory.Bulletin

/-!
A client of a memory resource that asks for blocks and returns them. Blocks are numbered in the
order in which they were granted. A block of size zero is granted without asking the resource: its
address is the alignment.
-/
namespace TaskMemory.Blocks

inductive Request where
  /-- Ask for a block of a size and an alignment. -/
  | allocate (size align : Nat)
  /-- Return the block with this number. -/
  | free (index : Nat)
  | describe
  deriving DecidableEq

inductive Answer where
  | block
  /-- A block of size zero, with its address. -/
  | dangling (address : Nat)
  | refused
  /-- There is no layout with these numbers. -/
  | invalidLayout
  | freed
  /-- No block with this number is out. -/
  | notLive
  | description (text : String)
  deriving DecidableEq

/-- The blocks granted so far, with those that are still out, and the environment. -/
structure State where
  env : Environment
  /-- The layout of each block that is still out, `none` for a block that has been returned. -/
  blocks : Array (Option Layout) := #[]

/-- The account of the layer that the client talks to. -/
def State.ledger (s : State) : Ledger := s.env.ledger?.getD {}

def State.allocate (s : State) (size align : Nat) : Answer × State :=
  match Layout.ofSizeAlign? size align with
  | none => (.invalidLayout, s)
  | some block =>
    if size = 0 then (.dangling align, { s with blocks := s.blocks.push (some block) })
    else match s.env.resource.allocate block with
      | (granted, resource, events) =>
        let env := { s.env with resource, events := s.env.events ++ events.toArray }
        if granted then (.block, { env, blocks := s.blocks.push (some block) })
        else (.refused, { s with env })

def State.free (s : State) (index : Nat) : Answer × State :=
  match s.blocks[index]? with
  | some (some block) =>
    (.freed, { env := s.env.release block, blocks := s.blocks.setIfInBounds index none })
  | _ => (.notLive, s)

def State.serve (s : State) : Request → Answer × State
  | .allocate size align => s.allocate size align
  | .free index => s.free index
  | .describe => (.description s.ledger.text, s)

/-- Return every block that is still out, in the order of their numbers. -/
def State.freeAll (s : State) : State :=
  { env := s.blocks.foldl (fun env b => b.elim env env.release) s.env, blocks := #[] }

/-- Serve requests in order; each answer comes with a bulletin. -/
def State.run (s : State) (seen : Mark) : List Request → List (Answer × Bulletin) × State
  | [] => ([], s)
  | r :: rest =>
    match s.serve r with
    | (answer, s) =>
      match s.run s.env.mark rest with
      | (reports, last) => ((answer, s.env.bulletin seen) :: reports, last)

end TaskMemory.Blocks
