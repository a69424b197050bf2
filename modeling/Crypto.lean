import Crypto.Tiresias.ConstLog
import Crypto.Tiresias.Bounds
import Crypto.Tiresias.Factorial
import Crypto.Tiresias.SecretSharing
import Crypto.Tiresias.Lagrange
import Crypto.CryptoBigint.Montgomery
import Crypto.CryptoBigint.DynResidue
import Crypto.Tiresias.RingElement
import Crypto.Commitment.Pedersen
import Crypto.Commitment.Derive
import Crypto.Group.Secp256k1
import Crypto.Commitment.PedersenSecp256k1
