import ConfigBinding.Context
import ConfigBinding.Proofs.Access.Repeating
import ConfigBinding.Proofs.Analysis.Report
import ConfigBinding.Proofs.Datetime.Reading
import ConfigBinding.Proofs.Decoding.Conversion
import ConfigBinding.Proofs.Decoding.Kinds
import ConfigBinding.Proofs.Placeholder.Writing
import ConfigBinding.Proofs.Reference.Frame
import ConfigBinding.Proofs.Run.Declared
import ConfigBinding.Proofs.Run.Keeping
import ConfigBinding.Proofs.Run.Kinds
import ConfigBinding.Proofs.Run.Libraries
import ConfigBinding.Proofs.Run.Reading
import ConfigBinding.Proofs.Store.LastWriter
import ConfigBinding.Proofs.Template.Arguments
import ConfigBinding.Proofs.Store.Ordered
import ConfigBinding.Proofs.Store.Removing
import ConfigBinding.Proofs.Store.Setting
import ConfigBinding.Proofs.Run.EntryPrefixes
import ConfigBinding.Proofs.Library.Stopping
import ConfigBinding.Proofs.Environment.Variables
import ConfigBinding.Proofs.Run.Dispatch
import ConfigBinding.Proofs.Store.Repeating
import ConfigBinding.Proofs.Template.Numerals
import ConfigBinding.Proofs.Decoding.Lists
import ConfigBinding.Proofs.Placeholder.Marks
import ConfigBinding.Proofs.Reference.Shortcut
import ConfigBinding.Proofs.Analysis.Calls
import ConfigBinding.Proofs.Binding.Loads
import ConfigBinding.Proofs.Binding.Slots
