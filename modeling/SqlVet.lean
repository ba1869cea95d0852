import SqlVet.Diagnostic.Report
import SqlVet.Tree.Basic
import SqlVet.Tree.Equality
import SqlVet.Tree.Node
import SqlVet.Tree.Script
import SqlVet.Tree.Walk
import SqlVet.Event
import SqlVet.Name.Basic
import SqlVet.Catalog.Basic
import SqlVet.Catalog.Registry
import SqlVet.Validation
import SqlVet.Session
import SqlVet.Proofs.Walk.Tour
import SqlVet.Proofs.Walk.Loop
import SqlVet.Proofs.Walk.Preorder
import SqlVet.Proofs.Walk.Uses
import SqlVet.Proofs.Walk.Collector
import SqlVet.Proofs.Check.Calls
import SqlVet.Proofs.Check.Parameters
import SqlVet.Proofs.Catalog.History
import SqlVet.Proofs.Name.Lexeme
import SqlVet.Proofs.Name.Grammar
import SqlVet.Proofs.Name.RoundTrip
import SqlVet.Proofs.Check.Validation
import SqlVet.Proofs.Check.Spans
import SqlVet.Proofs.Check.SourceOrder
import SqlVet.Proofs.Catalog.Registration
import SqlVet.Proofs.Catalog.Agreement
import SqlVet.Proofs.Check.Change
import SqlVet.Proofs.Check.Provenance
import SqlVet.Proofs.Name.LongestMatch
import SqlVet.Proofs.Name.Separation
import SqlVet.Proofs.Check.Events
import SqlVet.Proofs.Name.Case
import SqlVet.Proofs.Name.Relex
import SqlVet.Proofs.Name.Plain
