import OperandStack.Body
import OperandStack.Browser
import OperandStack.Bundle
import OperandStack.Cbor.Item
import OperandStack.Cbor.Reader
import OperandStack.Code.Constant
import OperandStack.Code.ConstantPool
import OperandStack.Code.Encoding
import OperandStack.Code.Instruction
import OperandStack.Code.Opcode
import OperandStack.Code.Recording
import OperandStack.CommandLine
import OperandStack.Effect
import OperandStack.Error
import OperandStack.Frame
import OperandStack.InputLine
import OperandStack.Invocation
import OperandStack.Journal
import OperandStack.Kind
import OperandStack.Listing
import OperandStack.Main
import OperandStack.Manipulation.Access
import OperandStack.Manipulation.Assign
import OperandStack.Manipulation.Atom
import OperandStack.Manipulation.Basic
import OperandStack.Manipulation.Literal
import OperandStack.Member
import OperandStack.Modifiers
import OperandStack.Number.Binary
import OperandStack.Number.Layout
import OperandStack.Number.Operations
import OperandStack.Number.Shortest
import OperandStack.Recipe.Basic
import OperandStack.Recipe.Load
import OperandStack.Recipe.Plan
import OperandStack.Recipe.Reader
import OperandStack.Storage
import OperandStack.Text.Block
import OperandStack.Text.Cells
import OperandStack.Text.Cluster
import OperandStack.Text.Hex
import OperandStack.Text.LowerCase
import OperandStack.Text.Pen
import OperandStack.Text.Printable
import OperandStack.Text.Quoted
import OperandStack.Text.Ranges
import OperandStack.Text.Template
import OperandStack.Text.Token
import OperandStack.Text.Wrap
import OperandStack.Toml.Document
import OperandStack.Toml.Moment
import OperandStack.Toml.Scalar
import OperandStack.Toml.Statement
import OperandStack.Toml.Value
import OperandStack.Type.Assignable
import OperandStack.Type.Basic
import OperandStack.Type.Builtin
import OperandStack.Type.Table
import OperandStack.Proofs.Pool.Calls
import OperandStack.Proofs.Code.Decoding
import OperandStack.Proofs.Code.RoundTrip
import OperandStack.Proofs.Machine.Descriptor
import OperandStack.Proofs.Emission.Built
import OperandStack.Proofs.Emission.Code
import OperandStack.Proofs.Machine.Action
import OperandStack.Proofs.Machine.Atoms
import OperandStack.Proofs.Machine.Depth
import OperandStack.Proofs.Emission.Depth
import OperandStack.Proofs.Machine.Sorts
import OperandStack.Proofs.Machine.Agreement
import OperandStack.Proofs.Body.Conversion
import OperandStack.Proofs.Body.Assignment
import OperandStack.Proofs.Body.Arguments
import OperandStack.Proofs.Body.Verified
import OperandStack.Proofs.Type.Hierarchy
import OperandStack.Proofs.Type.Coherence
import OperandStack.Proofs.Type.Search
import OperandStack.Proofs.Type.Order
import OperandStack.Proofs.Type.Grammar
import OperandStack.Proofs.Emission.Sink
import OperandStack.Proofs.Emission.Validity
import OperandStack.Proofs.Frame.Access
import OperandStack.Proofs.Frame.Size
import OperandStack.Proofs.Frame.LocalLimit
import OperandStack.Proofs.Code.FirstUse
import OperandStack.Proofs.Pool.Interning
import OperandStack.Proofs.Code.SharedPool
import OperandStack.Proofs.Code.Literals
import OperandStack.Proofs.Type.Spelling
import OperandStack.Proofs.Type.Description
import OperandStack.Proofs.Recipe.Resolution
import OperandStack.Proofs.Recipe.Kinds
import OperandStack.Proofs.Recipe.Target
import OperandStack.Proofs.Invocation.Retargeting
import OperandStack.Proofs.Recipe.Reports
import OperandStack.Proofs.Recipe.Failure
import OperandStack.Proofs.Browser.Selection
import OperandStack.Proofs.Cbor.Canonical
import OperandStack.Proofs.Bundle.RoundTrip
import OperandStack.Proofs.Emission.Nesting
import OperandStack.Proofs.Frame.Arguments
import OperandStack.Proofs.Machine.Values
import OperandStack.Proofs.Code.Evaluation
import OperandStack.Proofs.Machine.Arrays
import OperandStack.Proofs.Body.ArrayLiteral
import OperandStack.Proofs.Recipe.FixedNumber
import OperandStack.Proofs.Pool.Room
import OperandStack.Proofs.Pool.TextLength
import OperandStack.Proofs.Code.ArgumentSlots
import OperandStack.Proofs.Invocation.InterfaceCall
