import AbapLowering.Main
import AbapLowering.Proofs.AsyncFunctions
import AbapLowering.Proofs.Blocks
import AbapLowering.Proofs.Branches.Case
import AbapLowering.Proofs.Branches.Guards
import AbapLowering.Proofs.Branches.Try
import AbapLowering.Proofs.Caseless
import AbapLowering.Proofs.ClassKey
import AbapLowering.Proofs.Codec
import AbapLowering.Proofs.CommandLine
import AbapLowering.Proofs.Conditions
import AbapLowering.Proofs.Constructors
import AbapLowering.Proofs.CreatedObjects
import AbapLowering.Proofs.Dereferences
import AbapLowering.Proofs.DynamicNames
import AbapLowering.Proofs.Guards
import AbapLowering.Proofs.Hygiene
import AbapLowering.Proofs.Indentation
import AbapLowering.Proofs.Integers
import AbapLowering.Proofs.Layout
import AbapLowering.Proofs.Linking
import AbapLowering.Proofs.Literals
import AbapLowering.Proofs.MemberAccess
import AbapLowering.Proofs.MemberSpelling
import AbapLowering.Proofs.Members
import AbapLowering.Proofs.MethodResults
import AbapLowering.Proofs.OutputFiles
import AbapLowering.Proofs.Places
import AbapLowering.Proofs.PositionMap
import AbapLowering.Proofs.Relaxing
import AbapLowering.Proofs.Renumbering
import AbapLowering.Proofs.Scope.Cache
import AbapLowering.Proofs.Scope.Growth
import AbapLowering.Proofs.Scope.Innermost
import AbapLowering.Proofs.Scope.Shadowing
import AbapLowering.Proofs.StaticCalls
import AbapLowering.Proofs.StaticSection
import AbapLowering.Tree.Layout
