import PortableSql.Main
import PortableSql.Statement.Compound
import PortableSql.Statement.Delete
import PortableSql.Statement.Insert
import PortableSql.Statement.Update
import PortableSql.Savepoint.DualStack
import PortableSql.Proofs.CommandLine.Agreement
import PortableSql.Proofs.Compound.Result
import PortableSql.Proofs.Compound.Rows
import PortableSql.Proofs.Compound.Table
import PortableSql.Proofs.Compound.Tree
import PortableSql.Proofs.Conditions.Arity
import PortableSql.Proofs.Conditions.ColumnTest
import PortableSql.Proofs.Conditions.Fragments
import PortableSql.Proofs.Conditions.Grammar
import PortableSql.Proofs.Conditions.Kept
import PortableSql.Proofs.Conditions.Marks
import PortableSql.Proofs.Conditions.Matching
import PortableSql.Proofs.Conditions.Nesting
import PortableSql.Proofs.Conditions.Outline
import PortableSql.Proofs.Conditions.Precedence
import PortableSql.Proofs.Connection.Decoding
import PortableSql.Proofs.Connection.History
import PortableSql.Proofs.Literal.Listed
import PortableSql.Proofs.Literal.SelfDelimiting
import PortableSql.Proofs.Name.Path
import PortableSql.Proofs.Name.Representation
import PortableSql.Proofs.Name.Wordless
import PortableSql.Proofs.Parameter.Encoding
import PortableSql.Proofs.Parameter.Grammar
import PortableSql.Proofs.Reading.Formula
import PortableSql.Proofs.Reading.Node
import PortableSql.Proofs.Reading.Phrase
import PortableSql.Proofs.Reading.Quoted
import PortableSql.Proofs.Render.Agreement
import PortableSql.Proofs.Render.Draft
import PortableSql.Proofs.Render.Expansion
import PortableSql.Proofs.Render.Fault
import PortableSql.Proofs.Render.Noninterference
import PortableSql.Proofs.Render.Numbering
import PortableSql.Proofs.Render.Occurrences
import PortableSql.Proofs.Render.Outcome
import PortableSql.Proofs.Render.Perform
import PortableSql.Proofs.Render.Phrase
import PortableSql.Proofs.Render.Pieces
import PortableSql.Proofs.Render.Positional
import PortableSql.Proofs.Render.Replacement
import PortableSql.Proofs.Render.Rereading
import PortableSql.Proofs.Render.Splicing
import PortableSql.Proofs.Render.TablePrefix
import PortableSql.Proofs.Render.Unnamed
import PortableSql.Proofs.Render.Walk
import PortableSql.Proofs.Render.Wrapped
import PortableSql.Proofs.Savepoint.Baseline
import PortableSql.Proofs.Savepoint.Bracket
import PortableSql.Proofs.Savepoint.CommitTo
import PortableSql.Proofs.Savepoint.Invariant
import PortableSql.Proofs.Savepoint.LiveNames
import PortableSql.Proofs.Savepoint.Refinement
import PortableSql.Proofs.Statement.Appending
import PortableSql.Proofs.Statement.Assembly
import PortableSql.Proofs.Statement.Calls
import PortableSql.Proofs.Statement.ClauseByClause
import PortableSql.Proofs.Statement.Fields
import PortableSql.Proofs.Statement.Place
import PortableSql.Proofs.Subquery.Boundaries
import PortableSql.Proofs.Subquery.Clauses
import PortableSql.Proofs.Subquery.Comparing
import PortableSql.Proofs.Subquery.Levels
import PortableSql.Proofs.Subquery.Nest
import PortableSql.Proofs.Template.Decomposition
import PortableSql.Proofs.Template.Extension
import PortableSql.Proofs.Text.Keyword
