import TokenStream.Lexer.Session
import TokenStream.Main
import TokenStream.Proofs.Concatenation
import TokenStream.Proofs.Layout
import TokenStream.Proofs.Tape
import TokenStream.Proofs.Tiling
import TokenStream.Proofs.Account
import TokenStream.Proofs.Lines
import TokenStream.Proofs.Printed
import TokenStream.Proofs.Modes
import TokenStream.Proofs.Checked
import TokenStream.Proofs.Automaton
import TokenStream.Proofs.Blanks
import TokenStream.Proofs.Edits
import TokenStream.Proofs.Restart
import TokenStream.Proofs.Spelling
import TokenStream.Proofs.Consumption
import TokenStream.Proofs.Description
import TokenStream.Proofs.Prompt
import TokenStream.Proofs.Dispatch
import TokenStream.Proofs.Progress
