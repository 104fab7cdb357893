import Mathlib.Data.List.Infix

/-!
# Exchanges, queues and bindings

A message broker: what is declared in it, and where it puts a message. A declaration that is there
already with the same options changes nothing; with other options it is an error, and so is a
binding between names that are not there. An exchange that finds no queue for a message hands it to
its alternate one.
-/

namespace Broker

inductive ExchangeType where
  | fanout
  | direct
  | topic
  deriving DecidableEq

structure ExchangeOptions where
  type : ExchangeType
  durable : Bool
  alternateExchange : Option String
  deriving DecidableEq

/-- The value of an optional argument: the broker tells a text from a number. -/
inductive ArgumentValue where
  | text (value : String)
  | number (value : Int)
  deriving DecidableEq

/-- `deadLetter` is the exchange and the routing key of what the queue gives up. -/
structure QueueOptions where
  durable : Bool
  deadLetter : Option (String × List Char)
  arguments : List (String × ArgumentValue)
  deriving DecidableEq

structure Binding where
  queue : String
  exchange : String
  key : List Char
  deriving DecidableEq

inductive Declaration where
  | assertExchange (name : String) (options : ExchangeOptions)
  | assertQueue (name : String) (options : QueueOptions)
  | bindQueue (binding : Binding)
  deriving DecidableEq

structure Topology where
  exchanges : List (String × ExchangeOptions)
  queues : List (String × QueueOptions)
  bindings : List Binding
  deriving DecidableEq

def Topology.empty : Topology := ⟨[], [], []⟩

namespace Topology

variable (topology : Topology)

def exchange (name : String) : Option ExchangeOptions := topology.exchanges.lookup name

def queue (name : String) : Option QueueOptions := topology.queues.lookup name

def declare : Declaration → Option Topology
  | .assertExchange name options =>
      match topology.exchange name with
      | none => some { topology with exchanges := topology.exchanges ++ [(name, options)] }
      | some found => if found = options then some topology else none
  | .assertQueue name options =>
      match topology.queue name with
      | none => some { topology with queues := topology.queues ++ [(name, options)] }
      | some found => if found = options then some topology else none
  | .bindQueue binding =>
      if (topology.exchange binding.exchange).isSome ∧ (topology.queue binding.queue).isSome then
        if binding ∈ topology.bindings then some topology
        else some { topology with bindings := topology.bindings ++ [binding] }
      else none

end Topology

/-! ### Routing keys -/

/-- A `*` stands for one word, and a `#` for any number of them. -/
def topicMatches : List (List Char) → List (List Char) → Bool
  | [] => fun words => words.isEmpty
  | first :: pattern => fun words =>
      if first = ['#'] then words.tails.any (topicMatches pattern)
      else
        match words with
        | [] => false
        | word :: rest => (first = ['*'] || first = word) && topicMatches pattern rest

def words (key : List Char) : List (List Char) := key.splitOn '.'

theorem words_injective {left right : List Char} (heq : words left = words right) :
    left = right := by
  have hjoin := congrArg (fun words => ['.'].intercalate words) heq
  simpa only [words, List.intercalate_splitOn] using hjoin

/-- A pattern without a placeholder is met by itself. -/
theorem topicMatches_plain {pattern : List (List Char)}
    (hplain : ∀ word ∈ pattern, word ≠ ['#'] ∧ word ≠ ['*']) (key : List (List Char)) :
    topicMatches pattern key = true ↔ pattern = key := by
  induction pattern generalizing key with
  | nil => cases key <;> simp [topicMatches]
  | cons first rest ih =>
      obtain ⟨hhash, hstar⟩ := hplain first List.mem_cons_self
      have ih := ih fun word hword => hplain word (List.mem_cons_of_mem _ hword)
      rw [topicMatches]
      dsimp only
      rw [if_neg hhash]
      cases key with
      | nil => simp
      | cons word others => simp [hstar, ih]

def ExchangeType.accepts (type : ExchangeType) (bindingKey key : List Char) : Bool :=
  match type with
  | .fanout => true
  | .direct => bindingKey = key
  | .topic => topicMatches (words bindingKey) (words key)

/-! ### Where a message goes -/

namespace Topology

variable (topology : Topology)

/-- The queues that are bound to the exchange for the key, each once. -/
def bound (name : String) (type : ExchangeType) (key : List Char) : List String :=
  ((topology.bindings.filter fun binding =>
    binding.exchange = name && type.accepts binding.key key).map Binding.queue).eraseDups

/-- Alternate exchanges are followed for as long as nothing is found, none of them twice. -/
def routeWithin (fuel : Nat) (name : String) (key : List Char) : List String :=
  match fuel with
  | 0 => []
  | fuel + 1 =>
      match topology.exchange name with
      | none => []
      | some options =>
          let queues := topology.bound name options.type key
          if queues = [] then
            options.alternateExchange.elim [] fun alternate => routeWithin fuel alternate key
          else queues

def route (name : String) (key : List Char) : List String :=
  topology.routeWithin topology.exchanges.length name key

/-- Where a queue's dead letters go. -/
def deadLetterQueues (name : String) : List String :=
  ((topology.queue name).bind QueueOptions.deadLetter).elim [] fun target =>
    topology.route target.1 target.2

end Topology

end Broker
