import DragonflyFabric.Language.Grammar
import DragonflyFabric.Language.Lexer

/-!
The chart of a list of tokens: for each position the items that hold there, an item being a rule of which
some symbols have been found since its origin.

The set of a position grows while it is walked. An item that expects a token takes the next one along
to the following set; one that expects a category adds the rules of that category; a finished one
advances the items at its origin that expect its category, unless it gives way to another item that
made the same phrase. Advanced items are all kept, so that a text with two readings is seen to have two.
-/

namespace DragonflyFabric.Language

/-- A rule of which `found`, latest first, has been found between `origin` and here. -/
structure Item where
  rule : Rule
  origin : Nat
  found : List Node

namespace Item

def fresh (rule : Rule) (origin : Nat) : Item := ⟨rule, origin, []⟩

/-- The symbol expected next; none when the item is finished. -/
def next? (i : Item) : Option Symbol := i.rule.right[i.found.length]?

def isFinished (i : Item) : Bool := i.next?.isNone

def isFresh (i : Item) : Bool := i.found.isEmpty

def advance (i : Item) (node : Node) : Item := { i with found := node :: i.found }

/-- Whether a finished item made the same phrase as another one. -/
def rivals (i other : Item) : Bool :=
  other.isFinished && other.rule.left = i.rule.left && other.origin = i.origin

/-- What a finished item stands for. -/
def node? (i : Item) : Option Node := i.rule.build i.found.reverse

end Item

namespace Chart

/-- The rules of a category join a set once. -/
def predict (c : Category) (here : Nat) (set : Array Item) : Array Item :=
  c.rules.foldl
    (fun set rule =>
      if set.any fun i => i.rule = rule && i.isFresh then set else set.push (.fresh rule here))
    set

/-- Whether the finished item at index `k` gives way: to an earlier item that made the same phrase,
unless its own rule is ranked above, or to any that made it by a rule ranked above its own. -/
def givesWay (set : Array Item) (k : Nat) (item : Item) : Bool :=
  set.any (fun other => item.rivals other && item.rule.rank other.rule ≠ some .gt) 0 k
    || set.any fun other => item.rivals other && item.rule.rank other.rule = some .lt

/-- The copies of the items of a set that expect a category, advanced over a phrase of it. -/
def advanced (parents : Array Item) (c : Category) (node : Node) : Array Item :=
  (parents.filter fun i => i.next? = some (.category c)).map (·.advance node)

/-- Walks a set from index `k` on, growing it and the following one. `done` holds the sets before. -/
def grow (done : Array (Array Item)) (token : Option Token) :
    Nat → Nat → Array Item → Array Item → Array Item × Array Item
  | 0, _, set, following => (set, following)
  | steps + 1, k, set, following =>
    match set[k]? with
    | none => (set, following)
    | some item =>
      match item.next? with
      | some (.terminal t) =>
        match token with
        | some tok =>
          if tok.terminal = t then
            grow done token steps (k + 1) set (following.push (item.advance (.leaf tok)))
          else grow done token steps (k + 1) set following
        | none => grow done token steps (k + 1) set following
      | some (.category c) => grow done token steps (k + 1) (predict c done.size set) following
      | none =>
        if givesWay set k item then grow done token steps (k + 1) set following
        else
          match item.node?, done[item.origin]? with
          | some node, some parents =>
            grow done token steps (k + 1) (set ++ advanced parents item.rule.left node) following
          | _, _ => grow done token steps (k + 1) set following

/-- How many items a set can have: those it starts with, each rule once, and for each of the `kept` items
of earlier sets three advanced copies, since at most three phrases of a category and an origin are kept. -/
def room (kept : Nat) (set : Array Item) : Nat := set.size + 36 + 3 * kept

/-- The last set of the chart; none when some set before it is empty. The sets in `done` have `kept`
items. -/
def last? (done : Array (Array Item)) (kept : Nat) (set : Array Item) : List Token → Option (Array Item)
  | [] => if set.isEmpty then none else some (grow done none (room kept set) 0 set #[]).1
  | token :: rest =>
    if set.isEmpty then none
    else
      let (set', following) := grow done (some token) (room kept set) 0 set #[]
      last? (done.push set') (kept + set'.size) following rest

end Chart

/-- Why a text has no tree. -/
inductive ParseFault
  /-- Some position of the text begins no lexeme. -/
  | noTokens
  | notInGrammar
  | ambiguous
  deriving DecidableEq

/-- The node that a list of tokens stands for as a phrase of a category. -/
def parseTokens (goal : Category) (tokens : List Token) : Except ParseFault Node :=
  match Chart.last? #[] 0 #[.fresh (.whole goal) 0] tokens with
  | none => .error .notInGrammar
  | some set =>
    match set.toList.filter fun i => i.rule = .whole goal && i.isFinished with
    | [] => .error .notInGrammar
    | [item] => (item.node?).elim (.error .notInGrammar) .ok
    | _ => .error .ambiguous

def parse (goal : Category) (text : String) : Except ParseFault Node :=
  match Lexer.tokens? text.toList with
  | none => .error .noTokens
  | some tokens => parseTokens goal tokens

/-- The value a text stands for. -/
def parseValue (text : String) : Except ParseFault Value :=
  match parse .value text with
  | .ok (.value v) => .ok v
  | .ok _ => .error .notInGrammar
  | .error f => .error f

/-- The expression a text stands for. -/
def parseExpression (text : String) : Except ParseFault Expr :=
  match parse .expression text with
  | .ok (.expression e) => .ok e
  | .ok _ => .error .notInGrammar
  | .error f => .error f

end DragonflyFabric.Language
