import TokenStream.Main
import TokenStream.Proofs.Attainable
import TokenStream.Proofs.Blanks
import TokenStream.Proofs.Decoding
import TokenStream.Proofs.Laziness
import TokenStream.Proofs.MaximalMunch
import TokenStream.Proofs.Processes
import TokenStream.Proofs.Prompts
import TokenStream.Proofs.Refusal
import TokenStream.Proofs.Sentinel
import TokenStream.Proofs.Walks
import TokenStream.Token.Walk
