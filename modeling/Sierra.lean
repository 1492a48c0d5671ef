import Sierra.Main
import Sierra.Proofs.Bits
import Sierra.Proofs.Cache.Names
import Sierra.Proofs.Cache.Reuse
import Sierra.Proofs.Chain
import Sierra.Proofs.Gas.Cuts
import Sierra.Proofs.Gas.Dearer
import Sierra.Proofs.Gas.Endless
import Sierra.Proofs.Heap.History
import Sierra.Proofs.Llvm.Literals
import Sierra.Proofs.Llvm.Symbols
import Sierra.Proofs.Lower.Follow
import Sierra.Proofs.Numbers
import Sierra.Proofs.Optimize.Endings
import Sierra.Proofs.Optimize.Stops
import Sierra.Proofs.Settle
import Sierra.View.Project
import Sierra.View.Run
import Sierra.Proofs.Layout
import Sierra.Proofs.Value.Numerals
