import CqlToSql.Main
import CqlToSql.Proofs.Condition.Injection
import CqlToSql.Proofs.Condition.Joins
import CqlToSql.Proofs.Condition.LiteralText
import CqlToSql.Proofs.Condition.Meaning
import CqlToSql.Proofs.Condition.PrimaryKey
import CqlToSql.Proofs.Query.Printing
import CqlToSql.Term.Plain
import CqlToSql.Term.Regexp
import CqlToSql.Proofs.Schema.Paths
import CqlToSql.Proofs.Condition.Selection
import CqlToSql.Proofs.Query.Tokens
import CqlToSql.Proofs.Query.FirstImpossible
import CqlToSql.Proofs.Condition.Recursion
import CqlToSql.Proofs.Term.FullText
import CqlToSql.Proofs.Text.Words
import CqlToSql.Proofs.Condition.SearchWords
import CqlToSql.Proofs.Condition.FullTextQuery
import CqlToSql.Proofs.Condition.ServerChoice
import CqlToSql.Proofs.Sql.Like
import CqlToSql.Proofs.Condition.Complement
import CqlToSql.Proofs.Condition.ValueJoin
import CqlToSql.Proofs.Condition.IndexedExpression
import CqlToSql.Proofs.Condition.SeveralColumns
import CqlToSql.Proofs.Json.Quoted
import CqlToSql.Proofs.Sql.Elements
import CqlToSql.Proofs.Condition.Predicates
import CqlToSql.Proofs.Condition.ElementModifiers
import CqlToSql.Proofs.Condition.TypedTerm
import CqlToSql.Proofs.Condition.KeyColumn
import CqlToSql.Proofs.Condition.UnrelatedTable
import CqlToSql.Proofs.Condition.ValueComplement
import CqlToSql.Proofs.Condition.FaultOrigin
import CqlToSql.Proofs.Term.Agreement
import CqlToSql.Proofs.Term.Regexp
import CqlToSql.Proofs.Document.Path
import CqlToSql.Proofs.Condition.ElementObject
import CqlToSql.Proofs.Program.SelectedTable
