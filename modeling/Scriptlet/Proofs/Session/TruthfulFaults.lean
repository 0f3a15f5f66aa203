import Scriptlet.Proofs.Parser.Consistency
import Scriptlet.Proofs.Session.LexicalScoping

/-!
# Faults tell the truth

The operators are defined on tokens of any kind, so there are faults for operators that no source
can hold, and trees built by hand do raise them. In a session only trees are evaluated that were
read from sources. A fault is raised at a node that was visited, this node stands in one of the
sources that were run, and there its token is one that its role allows. So the fault names an
operator of the language together with types that this operator is not defined on, or a name that
one of the sources mentions.
-/

namespace Scriptlet

/-- The operators that stand between their operands. -/
def infixOperators : List Kind :=
  [.plus, .minus, .star, .slash, .eq, .ne, .lt, .le, .gt, .ge]

/-- What a fault says can be so when these sources are run. -/
def Fault.Truthful (sources : List String) : Fault → Prop
  | .typeMismatch left op right => left ≠ right ∧ op ∈ infixOperators
  | .unknownUnary op operand => op = .minus ∧ operand ≠ .int
  | .unknownBinary left op right =>
      left = right ∧ left ≠ .int ∧ op ∈ infixOperators ∧
        (left = .bool → op ∈ [.plus, .minus, .star, .slash])
  | .unknownSuffix operand op => (op = .plusPlus ∨ op = .minusMinus) ∧ operand ≠ .int
  | .divisionByZero => True
  | .unbound name =>
      ∃ source ∈ sources, ∃ token ∈ tokenize source, token.kind = .ident ∧ token.literal = name
  | .notAFunction found => found ≠ .function
  | .argumentCount expected found => expected ≠ found
  | .stackOverflow limit => limit = 256

namespace Value

variable {op : Kind} {fault : Fault} {sources : List String}

theorem truthful_unary (allowed : op ∈ Role.unary.allowed) {operand : Value}
    (failed : unary op operand = .error fault) : fault.Truthful sources := by
  simp only [Role.allowed, List.mem_cons, List.not_mem_nil, or_false] at allowed
  rcases allowed with rfl | rfl
  · cases operand <;> cases failed <;> simp [Fault.Truthful, Value.type]
  · cases failed

theorem truthful_suffix (allowed : op ∈ Role.suffix.allowed) {operand : Value}
    (failed : suffix op operand = .error fault) : fault.Truthful sources := by
  simp only [Role.allowed, List.mem_cons, List.not_mem_nil, or_false] at allowed
  rcases allowed with rfl | rfl | rfl
  · cases operand <;> cases failed <;> simp [Fault.Truthful, Value.type]
  · cases operand <;> cases failed <;> simp [Fault.Truthful, Value.type]
  · cases failed

/-- On integers all ten operators are defined. -/
theorem truthful_binaryInt (allowed : op ∈ infixOperators) {left right : Int64}
    (failed : binaryInt op left right = .error fault) : fault.Truthful sources := by
  simp only [infixOperators, List.mem_cons, List.not_mem_nil, or_false] at allowed
  rcases allowed with rfl | rfl | rfl | rfl | rfl | rfl | rfl | rfl | rfl | rfl
  case inr.inr.inr.inl =>
    simp only [binaryInt] at failed
    split at failed <;> cases failed
    trivial
  all_goals cases failed

theorem truthful_binaryBool (allowed : op ∈ infixOperators) {left right : Bool}
    (failed : binaryBool op left right = .error fault) : fault.Truthful sources := by
  simp only [infixOperators, List.mem_cons, List.not_mem_nil, or_false] at allowed
  rcases allowed with rfl | rfl | rfl | rfl | rfl | rfl | rfl | rfl | rfl | rfl <;>
    cases failed <;> simp [Fault.Truthful, infixOperators]

theorem truthful_binary (allowed : op ∈ infixOperators) {left right : Value}
    (failed : binary op left right = .error fault) : fault.Truthful sources := by
  unfold binary at failed
  split at failed
  · exact truthful_binaryInt allowed failed
  · exact truthful_binaryBool allowed failed
  · next notInts notBools =>
      split at failed
      · next same =>
          cases failed
          refine ⟨same, ?_, allowed, ?_⟩
          · intro isInt
            cases left <;> cases right <;> simp_all [Value.type]
          · intro isBool
            cases left <;> cases right <;> simp_all [Value.type]
      · next distinct =>
          cases failed
          exact ⟨distinct, allowed⟩

end Value

/-- A node that was read from a source raises no other faults. -/
theorem Node.Raises.truthful {node : Node} {fault : Fault} (raises : node.Raises fault)
    {source : String} {errors : List Diagnostic} (sourced : node.Sourced ⟨tokenize source, errors⟩)
    {sources : List String} (source_mem : source ∈ sources) : fault.Truthful sources := by
  cases raises with
  | unbound ident =>
      have names := sourced.names ident (by simp [Node.idents])
      exact ⟨source, source_mem, ident.token, names.fills.read,
        List.mem_singleton.1 names.fills.allowed, names.name_eq.symm⟩
  | unary failed => exact Value.truthful_unary (sourced.fills _ List.mem_cons_self).allowed failed
  | binary failed => exact Value.truthful_binary (sourced.fills _ List.mem_cons_self).allowed failed
  | suffix failed => exact Value.truthful_suffix (sourced.fills _ List.mem_cons_self).allowed failed
  | notAFunction other => exact other
  | argumentCount other => exact other
  | stackOverflow => rfl

/-- All nodes of a program come from its source. -/
theorem Program.sourced_of_parse {source : String} {program : Program}
    (parsed : Program.parse source = .ok program) {node : Node} (node_mem : node ∈ program.nodes) :
    node.Sourced ⟨tokenize source, []⟩ := by
  have read := Program.parse_eq_ok_iff.1 parsed
  rw [Program.nodes, nodesOfStmts_eq_flatMap] at node_mem
  rcases List.mem_flatMap.1 node_mem with ⟨stmt, stmt_mem, inside⟩
  have isRead : stmt ∈ (Program.read source).1.statements := by rwa [read]
  have built := Program.built_of_mem_read isRead
  rw [read] at built
  exact built.sourced node inside

namespace Watch

theorem getElem?_results (watch : Watch) (sources : List String) (index : Nat) :
    (watch.results sources)[index]? =
      sources[index]?.map fun source => ((watch.runAll (sources.take index)).run source).1 := by
  induction sources generalizing watch index with
  | nil => rfl
  | cons source sources ih =>
      cases index with
      | zero => rfl
      | succ index => simpa [results, runAll] using ih (watch.run source).2 index

/-- Faults are raised at nodes of the sources that were run. -/
theorem Orderly.truthful {sources : List String} {watch : Watch} {fault : Fault}
    (orderly : watch.Orderly (Program.parseAll sources)) (raised : watch.Raised fault) :
    fault.Truthful sources := by
  rcases raised with ⟨visit, visit_mem, raises⟩
  rcases (orderly.lexical.visits visit visit_mem).placed with ⟨program, program_mem, places⟩
  rcases Program.mem_parseAll_iff.1 program_mem with ⟨source, source_mem, parsed⟩
  exact raises.truthful (Program.sourced_of_parse parsed places.mem_nodes) source_mem

end Watch

/-- A fault that ends one of the runs in a session is truthful about the sources run until then. -/
theorem Session.faults_truthful (sources : List String) (index : Nat) (fault : Fault)
    (failed : (Session.new.results sources)[index]? = some (.error (.faulty fault))) :
    fault.Truthful (sources.take (index + 1)) := by
  have watched : Session.new.results sources = Watch.new.results sources :=
    Watch.new.results_session sources
  rw [watched, Watch.getElem?_results] at failed
  rcases Option.map_eq_some_iff.1 failed with ⟨source, isSource, ended⟩
  have split : sources.take (index + 1) = sources.take index ++ [source] := by
    simp [List.take_add_one, isSource]
  rw [split]
  have before : (Watch.new.runAll (sources.take index)).Orderly
      (Program.parseAll (sources.take index ++ [source])) :=
    Watch.orderly_runAll (List.subset_append_left _ _)
  rcases before.run fun program parsed => Program.mem_parseAll_iff.2 ⟨source, by simp, parsed⟩ with
    ⟨after, raised⟩
  exact after.truthful (raised fault ended)

/-- A function kept from an earlier run looks up a name that only this run mentions. -/
theorem Session.faults_truthful_kept :
    let sources := ["let f = fn(x) \x7b x - y \x7d", "f", "f(true)"]
    (Session.new.results sources)[2]? = some (.error (.faulty (.unbound "y"))) ∧
      Fault.Truthful sources (.unbound "y") := by
  intro sources
  have failed : (Session.new.results sources)[2]? = some (.error (.faulty (.unbound "y"))) := by
    decide +kernel
  exact ⟨failed, faults_truthful sources 2 _ failed⟩

end Scriptlet
